import PoorMansSmu.Operations
import PoorMansSmu.Ltc2758

/-!
# Hardware — the parts of the board the program writes to

A pin, the register file of the ADC and the two output converters.  Everything the program does to
the board is one of the single writes `HwWrite`.
-/

namespace PoorMansSmu
namespace Hardware

open Ltc2758

/-- The board. -/
structure Hw where
  /-- Level of pin 4. -/
  pin4 : Bool
  /-- Registers of the ADC, by address. -/
  adc : ℕ → ℕ
  /-- Converter 0, which sets the source value. -/
  sourceDac : Dac
  /-- Converter 1, which sets the limit. -/
  limitDac : Dac

/-- One write to the board. -/
inductive HwWrite
  | digitalWrite4 (level : Bool)
  | AD7176_WriteRegister (addr value : ℕ)
  | LTC2758_write (nr dac_command dac_address data : ℕ)
  deriving DecidableEq, Repr

namespace Hw

/-- The effect of a write.  The select lines choose converter 0 for `nr = 0` and converter 1 for
every other number. -/
def apply (hw : Hw) : HwWrite → Hw
  | .digitalWrite4 level => { hw with pin4 := level }
  | .AD7176_WriteRegister addr value =>
      { hw with adc := fun a => if a = addr then value else hw.adc a }
  | .LTC2758_write nr dac_command dac_address data =>
      if nr = 0 then
        { hw with sourceDac := hw.sourceDac.write dac_command dac_address data }
      else
        { hw with limitDac := hw.limitDac.write dac_command dac_address data }

/-- The second general purpose output of the ADC: bit 1 of register `0x06`. -/
def gpio1 (hw : Hw) : Bool := (hw.adc 0x06).testBit 1

end Hw

/-- The two ways the sense relay is wired on the boards: to pin 4, or to the second general purpose
output of the ADC. -/
inductive RelayWire
  | pin4
  | gpio1
  deriving DecidableEq, Repr

/-- The range the relay is in. -/
def relayRange (wire : RelayWire) (hw : Hw) : CurrentRange :=
  match wire with
  | .pin4 => if hw.pin4 then .AMP1 else .MILLIAMP10
  | .gpio1 => if hw.gpio1 then .AMP1 else .MILLIAMP10

end Hardware
end PoorMansSmu
