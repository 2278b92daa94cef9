import Mathlib.Data.List.Basic
import Mathlib.Data.List.DropRight

/-!
# ScpiParser — the library that maps message lines to handlers

The class `SCPI_Parser` of the library in `lib/scpi`, and the registration of the commands in
`scpi_setup`.  A command is not stored as text: its keywords are numbered, and the numbers are hashed
into one byte.  A message is executed by the handler whose byte comes out for it.

C strings are lists of characters.
-/

namespace PoorMansSmu
namespace Scpi

abbrev CString := List Char

def isspace (c : Char) : Bool :=
  c = ' ' || c = '\t' || c = '\n' || c = '\x0b' || c = '\x0c' || c = '\r'

/-- The fields that repeated calls of `strtok` yield: the empty ones are skipped. -/
def strtok (s : CString) (delimiter : Char) : List CString :=
  (s.splitOn delimiter).filter fun field => !field.isEmpty

/-- The handlers that `scpi_setup` registers. -/
inductive Caller
  | Identify
  | systemErrSCPI
  | finTemperatureSCPI
  | systemTemperatureSCPI
  | sourceVoltageSCPI
  | sourceCurrentSCPI
  | sourceCurrentVLimitSCPI
  | sourceVoltageILimitSCPI
  | setGainSCPI
  | measureVoltageSCPI
  | measureCurrentSCPI
  | getGainSCPI
  deriving DecidableEq, Repr

def SCPI_ARRAY_SYZE : ℕ := 6
def SCPI_MAX_TOKENS : ℕ := 15

/-- The part of a message up to the first space or tab. -/
def commandPart (message : CString) : CString :=
  (message.dropWhile isspace).takeWhile fun c => c ≠ ' ' && c ≠ '\t'

/-- `SCPI_Commands`: the keywords of a message, as many as the array holds. -/
def commands (message : CString) : List CString :=
  (strtok (commandPart message) ':').take SCPI_ARRAY_SYZE

structure SCPI_Parser where
  tokens_ : List CString := []
  valid_codes_ : List ℕ := []
  callers_ : List Caller := []
  /-- 0 for the root. -/
  tree_code_ : ℕ := 0
  hash_magic_number : ℕ := 37

namespace SCPI_Parser

/-- Add a token, unless an odd number of tokens begins with it. -/
def AddToken_ (P : SCPI_Parser) (token : CString) : SCPI_Parser :=
  let token := if token.getLast? = some '?' then token.dropLast else token
  -- the flag is toggled by every token that begins with this one
  let allready_added :=
    P.tokens_.foldl (fun added t => added ^^ decide (t.take token.length = token)) false
  if allready_added = false ∧ P.tokens_.length < SCPI_MAX_TOKENS then
    { P with tokens_ := P.tokens_ ++ [token] }
  else P

/-- The token takes numeric suffixes, and the header ends with something else. -/
def takesSuffix (token header : CString) : Bool :=
  token.getLast? = some '#' && header.getLast? ≠ some '#'

/-- The header is the short or the long form of the token. -/
def isToken (token header : CString) : Bool :=
  let short_length := (token.takeWhile Char.isUpper).length
  let long_length := token.length
  if header.length = short_length then header.map Char.toUpper = token.take short_length
  else if header.length = long_length then header.map Char.toUpper = token.map Char.toUpper
  else false

/-- The number of the first token that fits, counted from `j`.  A token that takes suffixes removes
the digits at the end of the header, for itself and for the tokens after it. -/
def findToken : (tokens : List CString) → (j : ℕ) → (header : CString) → Option ℕ
  | [], _, _ => none
  | token :: tokens, j, header =>
      if takesSuffix token header then
        let header := header.rdropWhile Char.isDigit
        if isToken token.dropLast header then some j else findToken tokens (j + 1) header
      else if isToken token header then some j
      else findToken tokens (j + 1) header

/-- The last keyword ends with a question mark. -/
def isQuery (commands : List CString) : Bool :=
  match commands.getLast? with
  | some keyword => keyword.getLast? = some '?'
  | none => false

/-- The keywords without the question mark. -/
def headers (commands : List CString) : List CString :=
  if isQuery commands then
    match commands.getLast? with
    | some keyword => commands.dropLast ++ [keyword.dropLast]
    | none => commands
  else commands

/-- The hash of the keywords, one byte; `none` if one of them is no token. -/
def hash (P : SCPI_Parser) : (code : ℕ) → List CString → Option ℕ
  | code, [] => some code
  | code, header :: headers =>
      match findToken P.tokens_ 0 header with
      | some j => P.hash ((code * P.hash_magic_number % 256 + j) % 256) headers
      | none => none

def GetCommandCode_ (P : SCPI_Parser) (commands : List CString) : ℕ :=
  match P.hash (if P.tree_code_ ≠ 0 then P.tree_code_ else 7) (headers commands) with
  -- a keyword that is no token: a code that no command has
  | none => 255
  | some code => if isQuery commands then (code * 37 % 256 + 255) % 256 else code

def SetCommandTreeBase (P : SCPI_Parser) (tree_base : CString) : SCPI_Parser :=
  if tree_base ≠ [] then
    let tree_tokens := commands tree_base
    let P := tree_tokens.foldl AddToken_ P
    let P := { P with tree_code_ := 0 }
    { P with tree_code_ := P.GetCommandCode_ tree_tokens }
  else { P with tree_code_ := 0 }

def RegisterCommand (P : SCPI_Parser) (command : CString) (caller : Caller) : SCPI_Parser :=
  let command_tokens := commands command
  let P := command_tokens.foldl AddToken_ P
  let code := P.GetCommandCode_ command_tokens
  { P with valid_codes_ := P.valid_codes_ ++ [code], callers_ := P.callers_ ++ [caller] }

/-- The handler of the first command with this code; `none` is the error handler. -/
def findCaller (P : SCPI_Parser) (code : ℕ) : Option Caller :=
  ((P.valid_codes_.zip P.callers_).find? fun entry => entry.1 = code).map Prod.snd

/-- One message of a line. -/
def executeMessage (P : SCPI_Parser) (message : CString) : Option Caller :=
  -- messages are read from the root, whatever was registered last
  let P := { P with tree_code_ := 0 }
  P.findCaller (P.GetCommandCode_ (commands message))

/-- The handlers called for a line, which may hold several messages. -/
def Execute (P : SCPI_Parser) (line : CString) : List (Option Caller) :=
  (line.splitOn ';').map P.executeMessage

end SCPI_Parser

/-- `scpi_setup`. -/
def scpi_setup : SCPI_Parser :=
  let my_instrument : SCPI_Parser := { hash_magic_number := 16 }
  let my_instrument := my_instrument.RegisterCommand "*IDN?".toList .Identify
  let my_instrument := my_instrument.RegisterCommand "SYST:ERR?".toList .systemErrSCPI
  let my_instrument := my_instrument.SetCommandTreeBase "SYSTem:".toList
  let my_instrument := my_instrument.RegisterCommand ":TEMPerature:FIN?".toList .finTemperatureSCPI
  let my_instrument :=
    my_instrument.RegisterCommand ":TEMPerature:SYS?".toList .systemTemperatureSCPI
  let my_instrument := my_instrument.SetCommandTreeBase "SOURce:".toList
  let my_instrument := my_instrument.RegisterCommand ":VOLTage".toList .sourceVoltageSCPI
  let my_instrument := my_instrument.RegisterCommand ":CURRent".toList .sourceCurrentSCPI
  let my_instrument :=
    my_instrument.RegisterCommand ":CURRent:VLIMit".toList .sourceCurrentVLimitSCPI
  let my_instrument :=
    my_instrument.RegisterCommand ":VOLTage:ILIMit".toList .sourceVoltageILimitSCPI
  let my_instrument := my_instrument.RegisterCommand ":SETGain".toList .setGainSCPI
  let my_instrument := my_instrument.SetCommandTreeBase "MEASure:".toList
  let my_instrument := my_instrument.RegisterCommand ":VOLTage?".toList .measureVoltageSCPI
  let my_instrument := my_instrument.RegisterCommand ":CURRent?".toList .measureCurrentSCPI
  my_instrument.RegisterCommand ":GETGain?".toList .getGainSCPI

theorem scpi_setup_tokens : scpi_setup.tokens_ =
    ["*IDN".toList, "SYST".toList, "ERR".toList, "SYSTem".toList, "TEMPerature".toList,
      "FIN".toList, "SYS".toList, "SOURce".toList, "VOLTage".toList, "CURRent".toList,
      "VLIMit".toList, "ILIMit".toList, "SETGain".toList, "MEASure".toList, "GETGain".toList] := by
  decide +kernel

theorem scpi_setup_codes : scpi_setup.valid_codes_.zip scpi_setup.callers_ =
    [(47, .Identify), (153, .systemErrSCPI), (248, .finTemperatureSCPI),
      (29, .systemTemperatureSCPI), (120, .sourceVoltageSCPI), (121, .sourceCurrentSCPI),
      (154, .sourceCurrentVLimitSCPI), (139, .sourceVoltageILimitSCPI), (124, .setGainSCPI),
      (55, .measureVoltageSCPI), (92, .measureCurrentSCPI), (21, .getGainSCPI)] := by
  decide +kernel

end Scpi
end PoorMansSmu
