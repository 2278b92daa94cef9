import PoorMansSmu.ScpiParser
import Mathlib.Data.List.Forall2

/-!
# ScpiDispatch — which messages reach which handler

The hash keeps no more than the last two keywords of a message and whether it is a query, and two
numbers of a query and of a command can be the same byte.  This file compares the handler that is
called with the command whose full path the message spells, and lists the endings for which the two
differ.
-/

namespace PoorMansSmu
namespace Scpi

open SCPI_Parser

/-! ## What a message spells -/

/-- The keywords of the full path of a command, as they are registered. -/
def Caller.keywords : Caller → List CString
  | .Identify => ["*IDN".toList]
  | .systemErrSCPI => ["SYST".toList, "ERR".toList]
  | .finTemperatureSCPI => ["SYSTem".toList, "TEMPerature".toList, "FIN".toList]
  | .systemTemperatureSCPI => ["SYSTem".toList, "TEMPerature".toList, "SYS".toList]
  | .sourceVoltageSCPI => ["SOURce".toList, "VOLTage".toList]
  | .sourceCurrentSCPI => ["SOURce".toList, "CURRent".toList]
  | .sourceCurrentVLimitSCPI => ["SOURce".toList, "CURRent".toList, "VLIMit".toList]
  | .sourceVoltageILimitSCPI => ["SOURce".toList, "VOLTage".toList, "ILIMit".toList]
  | .setGainSCPI => ["SOURce".toList, "SETGain".toList]
  | .measureVoltageSCPI => ["MEASure".toList, "VOLTage".toList]
  | .measureCurrentSCPI => ["MEASure".toList, "CURRent".toList]
  | .getGainSCPI => ["MEASure".toList, "GETGain".toList]

/-- A question mark follows the path of the command. -/
def Caller.query : Caller → Bool
  | .Identify => true
  | .systemErrSCPI => true
  | .finTemperatureSCPI => true
  | .systemTemperatureSCPI => true
  | .measureVoltageSCPI => true
  | .measureCurrentSCPI => true
  | .getGainSCPI => true
  | _ => false

/-- The short form of a keyword: without the letters that are registered in lower case. -/
def shortForm (keyword : CString) : CString := keyword.filter fun c => !c.isLower

/-- A header spells a keyword in long or short form, in any case. -/
def Spells (keyword header : CString) : Prop :=
  header.map Char.toUpper = keyword.map Char.toUpper ∨
    header.map Char.toUpper = shortForm keyword

/-- The whole path of a message. -/
def path (message : CString) : List CString := strtok (commandPart message) ':'

/-- The message spells the full path of the command, with the same query mark. -/
def MatchesCommand (message : CString) (c : Caller) : Prop :=
  isQuery (path message) = c.query ∧ List.Forall₂ Spells c.keywords (headers (path message))

/-- The handler called for a message is the one of the command it spells, and the error handler if it
spells none. -/
def RightHandler (message : CString) (called : Option Caller) : Prop :=
  ∀ c, called = some c ↔ MatchesCommand message c

/-! ## Tokens -/

/-- The number of the token that a header is read as. -/
def tokenOf (header : CString) : Option ℕ := findToken scpi_setup.tokens_ 0 header

namespace Token

def IDN : ℕ := 0
def SYST : ℕ := 1
def ERR : ℕ := 2
def SYSTem : ℕ := 3
def TEMPerature : ℕ := 4
def FIN : ℕ := 5
def SYS : ℕ := 6
def SOURce : ℕ := 7
def VOLTage : ℕ := 8
def CURRent : ℕ := 9
def VLIMit : ℕ := 10
def ILIMit : ℕ := 11
def SETGain : ℕ := 12
def MEASure : ℕ := 13
def GETGain : ℕ := 14

end Token

/-- A header, once it is in upper case, is a form of a token. -/
def fits (token upper : CString) : Bool :=
  let short_length := (token.takeWhile Char.isUpper).length
  if upper.length = short_length then upper = token.take short_length
  else if upper.length = token.length then upper = token.map Char.toUpper
  else false

theorem isToken_eq_fits (token header : CString) :
    isToken token header = fits token (header.map Char.toUpper) := by
  unfold isToken fits
  rw [List.length_map]

/-- The first token that fits, counted from `j`. -/
def findForm : (tokens : List CString) → (j : ℕ) → (upper : CString) → Option ℕ
  | [], _, _ => none
  | token :: tokens, j, upper => if fits token upper then some j else findForm tokens (j + 1) upper

/-- Without tokens that take suffixes, a header is read by its upper case. -/
theorem findToken_eq_findForm {tokens : List CString}
    (hsuffix : ∀ token ∈ tokens, token.getLast? ≠ some '#') (j : ℕ) (header : CString) :
    findToken tokens j header = findForm tokens j (header.map Char.toUpper) := by
  induction tokens generalizing j with
  | nil => rfl
  | cons token tokens ih =>
      have hnot : takesSuffix token header = false := by
        have hlast := hsuffix token List.mem_cons_self
        simp [takesSuffix, hlast]
      unfold findToken findForm
      rw [if_neg (by rw [hnot]; decide), isToken_eq_fits,
        ih (fun t ht => hsuffix t (List.mem_cons_of_mem _ ht))]

/-- The two forms of a token. -/
def tokenForms (token : CString) : List CString :=
  [token.take (token.takeWhile Char.isUpper).length, token.map Char.toUpper]

theorem mem_tokenForms_of_fits {token upper : CString} (h : fits token upper = true) :
    upper ∈ tokenForms token := by
  unfold fits at h
  simp only at h
  split_ifs at h with hshort hlong
  · exact List.mem_cons.2 (Or.inl (of_decide_eq_true h))
  · exact List.mem_cons_of_mem _ (List.mem_singleton.2 (of_decide_eq_true h))

/-- What is read as a token is one of its forms. -/
theorem mem_forms_of_findForm {tokens : List CString} {j k : ℕ} {upper : CString}
    (h : findForm tokens j upper = some k) : upper ∈ tokens.flatMap tokenForms := by
  induction tokens generalizing j with
  | nil => cases h
  | cons token tokens ih =>
      unfold findForm at h
      rw [List.flatMap_cons, List.mem_append]
      split_ifs at h with hfits
      · exact Or.inl (mem_tokenForms_of_fits hfits)
      · exact Or.inr (ih h)

def readUpper (upper : CString) : Option ℕ := findForm scpi_setup.tokens_ 0 upper

theorem tokenOf_eq (header : CString) : tokenOf header = readUpper (header.map Char.toUpper) := by
  refine findToken_eq_findForm ?_ 0 header
  rw [scpi_setup_tokens]
  decide

/-- The tokens that the forms of a keyword are read as. -/
def keywordTokens (keyword : CString) : List (Option ℕ) :=
  [readUpper (keyword.map Char.toUpper), readUpper (shortForm keyword)]

theorem tokenOf_mem_of_spells {keyword header : CString} (h : Spells keyword header) :
    tokenOf header ∈ keywordTokens keyword := by
  rw [tokenOf_eq]
  rcases h with h | h
  · rw [h]
    exact List.mem_cons_self
  · rw [h]
    exact List.mem_cons_of_mem _ List.mem_cons_self

theorem forms_spell : ∀ keyword ∈ scpi_setup.tokens_,
    ∀ upper ∈ scpi_setup.tokens_.flatMap tokenForms, readUpper upper ∈ keywordTokens keyword →
      upper = [] ∨ upper = keyword.map Char.toUpper ∨ upper = shortForm keyword := by
  decide +kernel

/-- Only the empty header, which is left of a keyword `?`, is read as a token without spelling it. -/
theorem spells_of_tokenOf_mem {keyword header : CString} (hkeyword : keyword ∈ scpi_setup.tokens_)
    {j : ℕ} (hread : tokenOf header = some j) (hj : some j ∈ keywordTokens keyword) :
    header = [] ∨ Spells keyword header := by
  rw [tokenOf_eq] at hread
  rw [← hread] at hj
  rcases forms_spell keyword hkeyword _ (mem_forms_of_findForm hread) hj with hempty | hspells
  · exact Or.inl (List.map_eq_nil_iff.1 hempty)
  · exact Or.inr hspells

/-! ## Paths of tokens -/

/-- The headers are read as these tokens. -/
def Reads (headers : List CString) (js : List ℕ) : Prop :=
  List.Forall₂ (fun header j => tokenOf header = some j) headers js

theorem reads_or_unknown (headers : List CString) :
    (∃ js, Reads headers js) ∨ ∃ header ∈ headers, tokenOf header = none := by
  induction headers with
  | nil => exact Or.inl ⟨[], List.Forall₂.nil⟩
  | cons header headers ih =>
      cases hread : tokenOf header with
      | none => exact Or.inr ⟨header, List.mem_cons_self, hread⟩
      | some j =>
          rcases ih with ⟨js, hjs⟩ | ⟨unknown, hmem, hnone⟩
          · exact Or.inl ⟨j :: js, List.Forall₂.cons hread hjs⟩
          · exact Or.inr ⟨unknown, List.mem_cons_of_mem _ hmem, hnone⟩

theorem Reads.unique {headers : List CString} {js js' : List ℕ} (h : Reads headers js)
    (h' : Reads headers js') : js = js' := by
  induction h generalizing js' with
  | nil =>
      cases h'
      rfl
  | cons hread _ ih =>
      cases h' with
      | cons hread' hrest' => rw [Option.some.inj (hread.symm.trans hread'), ih hrest']

/-- A token number is one of fifteen. -/
theorem tokenOf_lt {header : CString} {j : ℕ} (h : tokenOf header = some j) : j < 15 := by
  have hforms : ∀ upper ∈ scpi_setup.tokens_.flatMap tokenForms,
      ∀ k, readUpper upper = some k → k < 15 := by
    decide +kernel
  rw [tokenOf_eq] at h
  exact hforms _ (mem_forms_of_findForm h) j h

theorem Reads.lt {headers : List CString} {js : List ℕ} (h : Reads headers js) :
    ∀ j ∈ js, j < 15 := by
  induction h with
  | nil => exact fun j hj => absurd hj List.not_mem_nil
  | cons hread _ ih =>
      intro j hj
      rcases List.mem_cons.1 hj with rfl | hj
      · exact tokenOf_lt hread
      · exact ih j hj

/-- One keyword more. -/
def hashStep (code j : ℕ) : ℕ := (code * 16 % 256 + j) % 256

theorem hash_of_reads {headers : List CString} {js : List ℕ} (h : Reads headers js) (code : ℕ) :
    scpi_setup.hash code headers = some (js.foldl hashStep code) := by
  have hmagic : scpi_setup.hash_magic_number = 16 := by decide +kernel
  induction h generalizing code with
  | nil => rfl
  | @cons header j headers js hread _ ih =>
      have hread' : findToken scpi_setup.tokens_ 0 header = some j := hread
      unfold SCPI_Parser.hash
      rw [hread', hmagic]
      exact ih _

theorem hash_of_unknown {headers : List CString} (h : ∃ header ∈ headers, tokenOf header = none)
    (code : ℕ) : scpi_setup.hash code headers = none := by
  induction headers generalizing code with
  | nil =>
      obtain ⟨header, hmem, -⟩ := h
      cases hmem
  | cons first headers ih =>
      obtain ⟨header, hmem, hnone⟩ := h
      unfold SCPI_Parser.hash
      cases hfirst : findToken scpi_setup.tokens_ 0 first with
      | none => rfl
      | some j =>
          rcases List.mem_cons.1 hmem with rfl | hmem
          · cases hfirst.symm.trans hnone
          · exact ih ⟨header, hmem, hnone⟩ _

/-- The byte of a path of tokens. -/
def tokenCode (js : List ℕ) (query : Bool) : ℕ :=
  let code := js.foldl hashStep 7
  if query then (code * 37 % 256 + 255) % 256 else code

/-- The handler called for a path of tokens. -/
def routed (js : List ℕ) (query : Bool) : Option Caller :=
  scpi_setup.findCaller (tokenCode js query)

/-- The hash starts from the code it is given, whatever tree the parser is in. -/
theorem hash_tree_code (P : SCPI_Parser) (tree : ℕ) (code : ℕ) (headers : List CString) :
    { P with tree_code_ := tree }.hash code headers = P.hash code headers := by
  induction headers generalizing code with
  | nil => rfl
  | cons header headers ih =>
      unfold SCPI_Parser.hash
      cases findToken P.tokens_ 0 header with
      | none => rfl
      | some j => exact ih _

theorem executeMessage_of_reads {message : CString} {js : List ℕ}
    (h : Reads (headers (commands message)) js) :
    scpi_setup.executeMessage message = routed js (isQuery (commands message)) := by
  unfold executeMessage GetCommandCode_
  simp only [ne_eq, not_true_eq_false, if_false, hash_tree_code, hash_of_reads h 7]
  rfl

/-- With a keyword that is no token, the code is that of no command. -/
theorem executeMessage_of_unknown {message : CString}
    (h : ∃ header ∈ headers (commands message), tokenOf header = none) :
    scpi_setup.executeMessage message = none := by
  have hunknown : scpi_setup.findCaller 255 = none := by decide +kernel
  unfold executeMessage GetCommandCode_
  simp only [ne_eq, not_true_eq_false, if_false, hash_tree_code, hash_of_unknown h]
  exact hunknown

/-! ## The last two keywords -/

/-- The byte of the last two keywords. -/
def endingCode (a b : ℕ) (query : Bool) : ℕ :=
  let code := a * 16 + b
  if query then (code * 37 % 256 + 255) % 256 else code

/-- What precedes the last two keywords is shifted out of the byte. -/
theorem tokenCode_ending (before : List ℕ) {a b : ℕ} (ha : a < 15) (hb : b < 15) (query : Bool) :
    tokenCode (before ++ [a, b]) query = endingCode a b query := by
  have hcode : (before ++ [a, b]).foldl hashStep 7 = a * 16 + b := by
    rw [List.foldl_append]
    generalize before.foldl hashStep 7 = code
    simp only [List.foldl_cons, List.foldl_nil, hashStep]
    omega
  unfold tokenCode endingCode
  rw [hcode]

/-! ## Commands and collisions -/

/-- The last two keywords of a command, and what may precede them. -/
structure CommandEnding where
  caller : Caller
  before : List (List ℕ)
  a : ℕ
  b : ℕ
  query : Bool
  deriving DecidableEq

open Token

/-- The commands with more than one keyword. -/
def commandEndings : List CommandEnding :=
  [⟨.systemErrSCPI, [[]], SYST, ERR, true⟩,
    ⟨.finTemperatureSCPI, [[SYSTem], [SYST]], TEMPerature, FIN, true⟩,
    ⟨.systemTemperatureSCPI, [[SYSTem], [SYST]], TEMPerature, SYS, true⟩,
    ⟨.sourceVoltageSCPI, [[]], SOURce, VOLTage, false⟩,
    ⟨.sourceCurrentSCPI, [[]], SOURce, CURRent, false⟩,
    ⟨.sourceCurrentVLimitSCPI, [[SOURce]], CURRent, VLIMit, false⟩,
    ⟨.sourceVoltageILimitSCPI, [[SOURce]], VOLTage, ILIMit, false⟩,
    ⟨.setGainSCPI, [[]], SOURce, SETGain, false⟩,
    ⟨.measureVoltageSCPI, [[]], MEASure, VOLTage, true⟩,
    ⟨.measureCurrentSCPI, [[]], MEASure, CURRent, true⟩,
    ⟨.getGainSCPI, [[]], MEASure, GETGain, true⟩]

/-- Single keywords that have the byte of a command they do not spell. -/
def straySingles : List (ℕ × Bool) :=
  [(VOLTage, false), (CURRent, false), (SETGain, false), (ERR, true), (CURRent, true)]

/-- Last two keywords that end no command, but have the byte of one. -/
def strayEndings : List (ℕ × ℕ × Bool) :=
  [(CURRent, CURRent, false), (SYST, MEASure, false), (SYSTem, SOURce, false),
    (FIN, SETGain, false), (SYST, FIN, false), (SETGain, FIN, true), (SOURce, ERR, true),
    (CURRent, SETGain, true), (SOURce, CURRent, true), (SOURce, IDN, true)]

/-- A path of tokens has the byte of a command that it does not spell. -/
def Collides (js : List ℕ) (query : Bool) : Prop :=
  (∃ j, js = [j] ∧ (j, query) ∈ straySingles) ∨
    ∃ before a b, js = before ++ [a, b] ∧
      ((a, b, query) ∈ strayEndings ∨
        ∃ e ∈ commandEndings, (e.a, e.b, e.query) = (a, b, query) ∧ before ∉ e.before)

/-- A path of tokens spells a command. -/
def TokensSpell (c : Caller) (js : List ℕ) (query : Bool) : Prop :=
  (c = .Identify ∧ js = [IDN] ∧ query = true) ∨
    ∃ e ∈ commandEndings, e.caller = c ∧ e.query = query ∧
      ∃ before ∈ e.before, js = before ++ [e.a, e.b]

/-- Codes and handlers, as registration leaves them. -/
def codeTable : List (ℕ × Caller) :=
  [(47, .Identify), (153, .systemErrSCPI), (248, .finTemperatureSCPI),
    (29, .systemTemperatureSCPI), (120, .sourceVoltageSCPI), (121, .sourceCurrentSCPI),
    (154, .sourceCurrentVLimitSCPI), (139, .sourceVoltageILimitSCPI), (124, .setGainSCPI),
    (55, .measureVoltageSCPI), (92, .measureCurrentSCPI), (21, .getGainSCPI)]

def tableCaller (code : ℕ) : Option Caller :=
  (codeTable.find? fun entry => entry.1 = code).map Prod.snd

theorem findCaller_eq (code : ℕ) : scpi_setup.findCaller code = tableCaller code := by
  unfold findCaller tableCaller codeTable
  rw [scpi_setup_codes]

/-- The byte of its last two keywords belongs to the command. -/
theorem commandEndings_routed : ∀ e ∈ commandEndings,
    tableCaller (endingCode e.a e.b e.query) = some e.caller := by
  decide +kernel

theorem strayEndings_routed : ∀ k ∈ strayEndings,
    tableCaller (endingCode k.1 k.2.1 k.2.2) ≠ none ∧
      ∀ e ∈ commandEndings, (e.a, e.b, e.query) ≠ k := by
  decide +kernel

/-- Two commands differ in their last two keywords. -/
theorem commandEndings_unique : ∀ e ∈ commandEndings, ∀ e' ∈ commandEndings,
    (e.a, e.b, e.query) = (e'.a, e'.b, e'.query) → e = e' := by
  decide +kernel

/-- If the last two keywords have the byte of a command, they are among those listed. -/
def EndingListed (a b : ℕ) (query : Bool) : Prop :=
  tableCaller (endingCode a b query) ≠ none →
    (a, b, query) ∈ strayEndings ++ commandEndings.map fun e => (e.a, e.b, e.query)

instance (a b : ℕ) (query : Bool) : Decidable (EndingListed a b query) :=
  inferInstanceAs (Decidable (_ → _))

theorem endings_listed : ∀ a < 15, ∀ b < 15, ∀ query, EndingListed a b query := by
  decide +kernel

theorem singles_listed : ∀ j < 15, ∀ query : Bool,
    tableCaller (tokenCode [j] query) =
        (if (j, query) = (IDN, true) then some .Identify else none) ↔
      (j, query) ∉ straySingles := by
  decide +kernel

/-- The last two tokens of a path are determined by the path. -/
theorem ending_inj {before before' : List ℕ} {a b a' b' : ℕ}
    (h : before ++ [a, b] = before' ++ [a', b']) : before = before' ∧ a = a' ∧ b = b' := by
  obtain ⟨hbefore, hlast⟩ := List.append_inj' h rfl
  simp only [List.cons.injEq, and_true] at hlast
  exact ⟨hbefore, hlast⟩

theorem ending_ne_singleton (before : List ℕ) (a b j : ℕ) : before ++ [a, b] ≠ [j] := by
  intro hsingle
  have hlength := congrArg List.length hsingle
  simp at hlength

theorem tokensSpell_ending_iff {before : List ℕ} {a b : ℕ} {query : Bool} {c : Caller} :
    TokensSpell c (before ++ [a, b]) query ↔
      ∃ e ∈ commandEndings, e.caller = c ∧ (e.a, e.b, e.query) = (a, b, query) ∧
        before ∈ e.before := by
  constructor
  · rintro (⟨-, hsingle, -⟩ | ⟨e, he, hcaller, hquery, before', hmem, heq⟩)
    · exact absurd hsingle (ending_ne_singleton before a b _)
    · obtain ⟨rfl, rfl, rfl⟩ := ending_inj heq
      exact ⟨e, he, hcaller, by rw [hquery], hmem⟩
  · rintro ⟨e, he, hcaller, hkey, hmem⟩
    simp only [Prod.mk.injEq] at hkey
    obtain ⟨rfl, rfl, hquery⟩ := hkey
    exact Or.inr ⟨e, he, hcaller, hquery, before, hmem, rfl⟩

theorem collides_ending_iff {before : List ℕ} {a b : ℕ} {query : Bool} :
    Collides (before ++ [a, b]) query ↔
      (a, b, query) ∈ strayEndings ∨
        ∃ e ∈ commandEndings, (e.a, e.b, e.query) = (a, b, query) ∧ before ∉ e.before := by
  constructor
  · rintro (⟨j, hsingle, -⟩ | ⟨before', a', b', heq, hcollides⟩)
    · exact absurd hsingle (ending_ne_singleton before a b j)
    · obtain ⟨rfl, rfl, rfl⟩ := ending_inj heq
      exact hcollides
  · intro hcollides
    exact Or.inr ⟨before, a, b, rfl, hcollides⟩

/-- The byte of an ending goes to the command that has it. -/
theorem routed_of_ending {e : CommandEnding} (he : e ∈ commandEndings) {a b : ℕ} {query : Bool}
    (hkey : (e.a, e.b, e.query) = (a, b, query)) :
    tableCaller (endingCode a b query) = some e.caller := by
  simp only [Prod.mk.injEq] at hkey
  obtain ⟨rfl, rfl, rfl⟩ := hkey
  exact commandEndings_routed e he

/-- A path of two or more tokens goes to the command it spells, or collides. -/
theorem routed_ending_right_iff (before : List ℕ) {a b : ℕ} (ha : a < 15) (hb : b < 15)
    (query : Bool) :
    (∀ c, routed (before ++ [a, b]) query = some c ↔ TokensSpell c (before ++ [a, b]) query) ↔
      ¬ Collides (before ++ [a, b]) query := by
  have hrouted : routed (before ++ [a, b]) query = tableCaller (endingCode a b query) := by
    unfold routed
    rw [tokenCode_ending before ha hb, findCaller_eq]
  simp only [hrouted, tokensSpell_ending_iff, collides_ending_iff]
  constructor
  · rintro hright (hstray | ⟨e, he, hkey, hmem⟩)
    · -- the byte is that of a command, but the ending is that of none
      obtain ⟨hsome, hno⟩ := strayEndings_routed _ hstray
      obtain ⟨c, hc⟩ := Option.ne_none_iff_exists'.1 hsome
      obtain ⟨e, he, -, hkey, -⟩ := (hright c).1 hc
      exact hno e he hkey
    · -- the byte is that of `e`, but what precedes its ending is not
      obtain ⟨e', he', -, hkey', hmem'⟩ := (hright e.caller).1 (routed_of_ending he hkey)
      rw [commandEndings_unique e' he' e he (hkey'.trans hkey.symm)] at hmem'
      exact hmem hmem'
  · intro hnot c
    constructor
    · intro hcaller
      have hknown := endings_listed a ha b hb query (by rw [hcaller]; exact Option.some_ne_none c)
      rcases List.mem_append.1 hknown with hstray | hown
      · exact absurd (Or.inl hstray) hnot
      · obtain ⟨e, he, hkey⟩ := List.mem_map.1 hown
        -- what precedes the ending is right as well, or the path would collide
        have hmem : before ∈ e.before := by
          by_contra hmem
          exact hnot (Or.inr ⟨e, he, hkey, hmem⟩)
        have howner := routed_of_ending he hkey
        exact ⟨e, he, Option.some.inj (howner.symm.trans hcaller), hkey, hmem⟩
    · rintro ⟨e, he, rfl, hkey, -⟩
      exact routed_of_ending he hkey

theorem not_append_pair_eq_single {before : List ℕ} {a b j : ℕ} : [j] ≠ before ++ [a, b] := by
  intro heq
  have hlength := congrArg List.length heq
  simp at hlength

theorem routed_single_right_iff {j : ℕ} (hj : j < 15) (query : Bool) :
    (∀ c, routed [j] query = some c ↔ TokensSpell c [j] query) ↔ ¬ Collides [j] query := by
  have hspells : ∀ c, TokensSpell c [j] query ↔
      (if (j, query) = (IDN, true) then some Caller.Identify else none) = some c := by
    intro c
    -- only `*IDN?` has a single keyword
    have hsingle : TokensSpell c [j] query ↔ c = .Identify ∧ [j] = [IDN] ∧ query = true :=
      ⟨fun h => h.resolve_right fun ⟨_, _, _, _, _, _, heq⟩ => not_append_pair_eq_single heq,
        Or.inl⟩
    rw [hsingle]
    split_ifs with hkey
    · simp only [Prod.mk.injEq] at hkey
      simp [hkey, eq_comm]
    · simp only [Prod.mk.injEq, not_and] at hkey
      simp only [List.cons.injEq, and_true, iff_false, not_and]
      exact fun _ => hkey
  have hcollides : Collides [j] query ↔ (j, query) ∈ straySingles := by
    constructor
    · rintro (⟨j', heq, hmem⟩ | ⟨_, _, _, heq, -⟩)
      · rw [List.head_eq_of_cons_eq heq]
        exact hmem
      · exact absurd heq not_append_pair_eq_single
    · exact fun hmem => Or.inl ⟨j, rfl, hmem⟩
  have hrouted : routed [j] query = tableCaller (tokenCode [j] query) := findCaller_eq _
  rw [hcollides, ← singles_listed j hj query, hrouted]
  simp only [hspells]
  constructor
  · intro h
    exact Option.ext h
  · intro h c
    rw [h]

/-- A path of tokens goes to the command it spells exactly if it does not collide. -/
theorem routed_right_iff {js : List ℕ} (hlt : ∀ j ∈ js, j < 15) (query : Bool) :
    (∀ c, routed js query = some c ↔ TokensSpell c js query) ↔ ¬ Collides js query := by
  rcases js.eq_nil_or_concat with rfl | ⟨front, b, rfl⟩
  · have hrouted : routed [] query = none := by
      unfold routed
      rw [findCaller_eq]
      cases query <;> decide
    have hspells : ∀ c, ¬ TokensSpell c [] query := by
      rintro c (⟨-, heq, -⟩ | ⟨e, -, -, -, before, -, heq⟩)
      · cases heq
      · simp at heq
    have hcollides : ¬ Collides [] query := by
      rintro (⟨j, heq, -⟩ | ⟨before, a, b, heq, -⟩)
      · cases heq
      · simp at heq
    simp [hrouted, hspells, hcollides]
  · rcases front.eq_nil_or_concat with rfl | ⟨before, a, rfl⟩
    · exact routed_single_right_iff (hlt b (by simp)) query
    · have heq : (before.concat a).concat b = before ++ [a, b] := by simp
      rw [heq] at hlt ⊢
      exact routed_ending_right_iff before (hlt a (by simp)) (hlt b (by simp)) query

/-! ## Messages -/

theorem keywordTokens_table :
    keywordTokens "*IDN".toList = [some IDN, some IDN] ∧
      keywordTokens "SYST".toList = [some SYST, some SYST] ∧
      keywordTokens "ERR".toList = [some ERR, some ERR] ∧
      keywordTokens "SYSTem".toList = [some SYSTem, some SYST] ∧
      keywordTokens "TEMPerature".toList = [some TEMPerature, some TEMPerature] ∧
      keywordTokens "FIN".toList = [some FIN, some FIN] ∧
      keywordTokens "SYS".toList = [some SYS, some SYS] ∧
      keywordTokens "SOURce".toList = [some SOURce, some SOURce] ∧
      keywordTokens "VOLTage".toList = [some VOLTage, some VOLTage] ∧
      keywordTokens "CURRent".toList = [some CURRent, some CURRent] ∧
      keywordTokens "VLIMit".toList = [some VLIMit, some VLIMit] ∧
      keywordTokens "ILIMit".toList = [some ILIMit, some ILIMit] ∧
      keywordTokens "SETGain".toList = [some SETGain, some SETGain] ∧
      keywordTokens "MEASure".toList = [some MEASure, some MEASure] ∧
      keywordTokens "GETGain".toList = [some GETGain, some GETGain] := by
  decide +kernel

/-- The paths of tokens that spell a command. -/
def Caller.tokenPaths : Caller → List (List ℕ)
  | .Identify => [[IDN]]
  | .systemErrSCPI => [[SYST, ERR]]
  | .finTemperatureSCPI => [[SYSTem, TEMPerature, FIN], [SYST, TEMPerature, FIN]]
  | .systemTemperatureSCPI => [[SYSTem, TEMPerature, SYS], [SYST, TEMPerature, SYS]]
  | .sourceVoltageSCPI => [[SOURce, VOLTage]]
  | .sourceCurrentSCPI => [[SOURce, CURRent]]
  | .sourceCurrentVLimitSCPI => [[SOURce, CURRent, VLIMit]]
  | .sourceVoltageILimitSCPI => [[SOURce, VOLTage, ILIMit]]
  | .setGainSCPI => [[SOURce, SETGain]]
  | .measureVoltageSCPI => [[MEASure, VOLTage]]
  | .measureCurrentSCPI => [[MEASure, CURRent]]
  | .getGainSCPI => [[MEASure, GETGain]]

theorem mem_tokenPaths_iff (c : Caller) (js : List ℕ) :
    js ∈ c.tokenPaths ↔
      List.Forall₂ (fun keyword j => some j ∈ keywordTokens keyword) c.keywords js := by
  obtain ⟨h0, h1, h2, h3, h4, h5, h6, h7, h8, h9, h10, h11, h12, h13, h14⟩ := keywordTokens_table
  cases c <;>
    simp [Caller.tokenPaths, Caller.keywords, List.forall₂_cons_left_iff, -String.reduceToList, h0,
      h1, h2, h3, h4, h5, h6, h7, h8, h9, h10, h11, h12, h13, h14]

theorem commandEndings_paths : ∀ e ∈ commandEndings, e.query = e.caller.query ∧
    e.caller.tokenPaths = e.before.map fun before => before ++ [e.a, e.b] := by
  decide

theorem exists_ending (c : Caller) : c = .Identify ∨ ∃ e ∈ commandEndings, e.caller = c := by
  cases c <;> simp [commandEndings]

/-- What a command is as a path of tokens. -/
theorem tokensSpell_iff (c : Caller) (js : List ℕ) (query : Bool) :
    TokensSpell c js query ↔ query = c.query ∧ js ∈ c.tokenPaths := by
  constructor
  · rintro (⟨rfl, rfl, rfl⟩ | ⟨e, he, rfl, rfl, before, hmem, rfl⟩)
    · exact ⟨rfl, List.mem_singleton.2 rfl⟩
    · obtain ⟨hquery, hpaths⟩ := commandEndings_paths e he
      rw [hpaths]
      exact ⟨hquery, List.mem_map.2 ⟨before, hmem, rfl⟩⟩
  · rintro ⟨rfl, hmem⟩
    rcases exists_ending c with rfl | ⟨e, he, rfl⟩
    · exact Or.inl ⟨rfl, List.mem_singleton.1 hmem, rfl⟩
    · obtain ⟨hquery, hpaths⟩ := commandEndings_paths e he
      rw [hpaths] at hmem
      obtain ⟨before, hbefore, rfl⟩ := List.mem_map.1 hmem
      exact Or.inr ⟨e, he, rfl, hquery, before, hbefore, rfl⟩

/-- Headers that spell the keywords are read as tokens of theirs. -/
theorem tokens_of_spells {keywords hs : List CString} {js : List ℕ}
    (hspells : List.Forall₂ Spells keywords hs) (hreads : Reads hs js) :
    List.Forall₂ (fun keyword j => some j ∈ keywordTokens keyword) keywords js := by
  induction hspells generalizing js with
  | nil =>
      cases hreads
      exact List.Forall₂.nil
  | cons hfirst _ ih =>
      cases hreads with
      | cons hread hrest =>
          have hmem := tokenOf_mem_of_spells hfirst
          rw [hread] at hmem
          exact List.Forall₂.cons hmem (ih hrest)

theorem tokenOf_empty : tokenOf [] = some IDN := by decide +kernel

/-- Headers that are read as tokens of the keywords spell them, unless `*IDN` is among them. -/
theorem spells_of_tokens {keywords hs : List CString} {js : List ℕ}
    (hkeywords : ∀ keyword ∈ keywords,
      keyword ∈ scpi_setup.tokens_ ∧ some IDN ∉ keywordTokens keyword)
    (htokens : List.Forall₂ (fun keyword j => some j ∈ keywordTokens keyword) keywords js)
    (hreads : Reads hs js) : List.Forall₂ Spells keywords hs := by
  induction htokens generalizing hs with
  | nil =>
      cases hreads
      exact List.Forall₂.nil
  | @cons keyword j keywords js hfirst _ ih =>
      cases hreads with
      | @cons header _ hs _ hread hrest =>
          obtain ⟨hknown, hnot⟩ := hkeywords keyword List.mem_cons_self
          have hspells : Spells keyword header := by
            rcases spells_of_tokenOf_mem hknown hread hfirst with rfl | hspells
            · -- an empty header is read as `*IDN`, the first token of all
              rw [← hread, tokenOf_empty] at hfirst
              exact absurd hfirst hnot
            · exact hspells
          exact List.Forall₂.cons hspells
            (ih (fun k hk => hkeywords k (List.mem_cons_of_mem _ hk)) hrest)

/-- Every keyword of a command was registered as a token. -/
theorem keywords_registered (c : Caller) : ∀ keyword ∈ c.keywords, keyword ∈ scpi_setup.tokens_ := by
  rw [scpi_setup_tokens]
  cases c <;> decide +kernel

/-- A token is read as tokens, and as `*IDN` only if it is that. -/
theorem tokens_read : ∀ keyword ∈ scpi_setup.tokens_, none ∉ keywordTokens keyword ∧
    (some IDN ∈ keywordTokens keyword → keyword = "*IDN".toList) := by
  decide +kernel

theorem IDN_alone (c : Caller) : c = .Identify ∨ "*IDN".toList ∉ c.keywords := by
  cases c <;> decide +kernel

theorem keywords_known : ∀ c : Caller, c = .Identify ∨ ∀ keyword ∈ c.keywords,
    keyword ∈ scpi_setup.tokens_ ∧ some IDN ∉ keywordTokens keyword := by
  intro c
  rcases IDN_alone c with hidentify | hnot
  · exact Or.inl hidentify
  · refine Or.inr fun keyword hkeyword => ?_
    have hregistered := keywords_registered c keyword hkeyword
    refine ⟨hregistered, fun hread => hnot ?_⟩
    rw [← (tokens_read keyword hregistered).2 hread]
    exact hkeyword

theorem spells_iff_tokenPaths (c : Caller) {hs : List CString} {js : List ℕ}
    (hreads : Reads hs js) (hempty : hs ≠ [[]]) :
    List.Forall₂ Spells c.keywords hs ↔ js ∈ c.tokenPaths := by
  rw [mem_tokenPaths_iff]
  refine ⟨fun h => tokens_of_spells h hreads, fun h => ?_⟩
  rcases keywords_known c with rfl | hknown
  · -- the keyword is `*IDN`: one header, which is not empty
    rw [← mem_tokenPaths_iff] at h
    rw [List.mem_singleton.1 h] at hreads
    cases hreads with
    | @cons header _ _ _ hread hrest =>
        cases hrest
        have hknown : "*IDN".toList ∈ scpi_setup.tokens_ := by
          rw [scpi_setup_tokens]
          exact List.mem_cons_self
        have hmem : some IDN ∈ keywordTokens "*IDN".toList := by
          rw [keywordTokens_table.1]
          exact List.mem_cons_self
        rcases spells_of_tokenOf_mem hknown hread hmem with rfl | hspells
        · exact absurd rfl hempty
        · exact List.Forall₂.cons hspells List.Forall₂.nil
  · exact spells_of_tokens hknown h hreads

/-- A message whose first keywords are read as a path of tokens that collides, or that is a question
mark alone. -/
def Misread (message : CString) : Prop :=
  headers (commands message) = [[]] ∨
    ∃ js, Reads (headers (commands message)) js ∧ Collides js (isQuery (commands message))

theorem headers_length (keywords : List CString) :
    (headers keywords).length = keywords.length := by
  unfold headers
  split_ifs with hquery
  · cases hlast : keywords.getLast? with
    | none => rfl
    | some keyword =>
        -- the question mark is cut off the last keyword, which stays in its place
        have hne : keywords ≠ [] := by
          rintro rfl
          cases hlast
        have hpos := List.length_pos_of_ne_nil hne
        simp only [List.length_append, List.length_dropLast, List.length_singleton]
        omega
  · rfl

/-- A keyword is not empty, so an empty header was a question mark. -/
theorem isQuery_of_headers_empty {message : CString} (h : headers (commands message) = [[]]) :
    isQuery (commands message) = true := by
  by_contra hquery
  unfold headers at h
  rw [if_neg hquery] at h
  have hmem : ([] : CString) ∈ commands message := by
    rw [h]
    exact List.mem_cons_self
  have hfield := List.mem_of_mem_take hmem
  unfold strtok at hfield
  have hnonempty := (List.mem_filter.1 hfield).2
  cases hnonempty

theorem keywords_length (c : Caller) : c.keywords.length ≤ 3 := by
  cases c <;> decide

/-- What a message spells, by the tokens that its first keywords are read as. -/
theorem matchesCommand_iff {message : CString} {js : List ℕ}
    (hreads : Reads (headers (commands message)) js) (hempty : headers (commands message) ≠ [[]])
    (c : Caller) : MatchesCommand message c ↔ TokensSpell c js (isQuery (commands message)) := by
  have hcommands : commands message = (path message).take 6 := rfl
  rw [tokensSpell_iff, ← spells_iff_tokenPaths c hreads hempty]
  rcases Nat.lt_or_ge 6 (path message).length with hlong | hshort
  · -- keywords beyond the sixth are cut off: neither spells a command
    have hlimit := keywords_length c
    have hleft : ¬ MatchesCommand message c := by
      intro h
      have hlength := h.2.length_eq
      rw [headers_length] at hlength
      omega
    have hright : ¬ List.Forall₂ Spells c.keywords (headers (commands message)) := by
      intro h
      have hlength := h.length_eq
      rw [headers_length, hcommands, List.length_take] at hlength
      omega
    exact ⟨fun h => absurd h hleft, fun h => absurd h.2 hright⟩
  · have hall : commands message = path message := List.take_of_length_le hshort
    rw [hall]
    rfl

/-- A message with no more keywords than the longest command keeps all of them. -/
theorem commands_eq_path {message : CString} {c : Caller} (h : MatchesCommand message c) :
    commands message = path message := by
  have hlength := h.2.length_eq
  have hlimit := keywords_length c
  rw [headers_length] at hlength
  refine List.take_of_length_le ?_
  change (path message).length ≤ 6
  omega

/-- A question mark alone is read as `*IDN?`, which it does not spell. -/
theorem not_rightHandler_of_empty {message : CString}
    (hempty : headers (commands message) = [[]]) :
    ¬ RightHandler message (scpi_setup.executeMessage message) := by
  intro hright
  have hreads : Reads (headers (commands message)) [IDN] := by
    rw [hempty]
    exact List.Forall₂.cons tokenOf_empty List.Forall₂.nil
  have hcalled : scpi_setup.executeMessage message = some .Identify := by
    rw [executeMessage_of_reads hreads, isQuery_of_headers_empty hempty]
    unfold routed
    rw [findCaller_eq]
    decide
  have hmatches := (hright .Identify).1 hcalled
  have hspells := hmatches.2
  rw [← commands_eq_path hmatches, hempty] at hspells
  cases hspells with
  | cons hfirst _ => rcases hfirst with h | h <;> cases h

/-- With a keyword that is no token, a message spells no command. -/
theorem not_matches_of_unknown {message : CString}
    (h : ∃ header ∈ headers (commands message), tokenOf header = none) (c : Caller) :
    ¬ MatchesCommand message c := by
  intro hmatches
  obtain ⟨header, hmem, hnone⟩ := h
  rw [commands_eq_path hmatches] at hmem
  have hread : ∀ c : Caller, ∀ keyword ∈ c.keywords, none ∉ keywordTokens keyword :=
    fun c keyword hkeyword => (tokens_read keyword (keywords_registered c keyword hkeyword)).1
  have hspelled : ∀ {keywords hs : List CString}, List.Forall₂ Spells keywords hs → header ∈ hs →
      ∃ keyword ∈ keywords, Spells keyword header := by
    intro keywords hs hspells
    induction hspells with
    | nil => exact fun hmem => absurd hmem List.not_mem_nil
    | @cons keyword first keywords hs hfirst _ ih =>
        intro hmem
        rcases List.mem_cons.1 hmem with rfl | hmem
        · exact ⟨keyword, List.mem_cons_self, hfirst⟩
        · obtain ⟨keyword', hkeyword', hspells'⟩ := ih hmem
          exact ⟨keyword', List.mem_cons_of_mem _ hkeyword', hspells'⟩
  obtain ⟨keyword, hkeyword, hspells⟩ := hspelled hmatches.2 hmem
  have htoken := tokenOf_mem_of_spells hspells
  rw [hnone] at htoken
  exact hread c keyword hkeyword htoken

theorem not_misread_of_unknown {message : CString}
    (h : ∃ header ∈ headers (commands message), tokenOf header = none) : ¬ Misread message := by
  obtain ⟨header, hmem, hnone⟩ := h
  have hknown : ∀ {hs : List CString} {js : List ℕ}, Reads hs js → header ∉ hs := by
    intro hs js hreads
    induction hreads with
    | nil => exact List.not_mem_nil
    | cons hread _ ih =>
        intro hmem
        rcases List.mem_cons.1 hmem with rfl | hmem
        · cases hread.symm.trans hnone
        · exact ih hmem
  rintro (hempty | ⟨js, hreads, -⟩)
  · have hreads : Reads [[]] [IDN] := List.Forall₂.cons tokenOf_empty List.Forall₂.nil
    rw [hempty] at hmem
    exact hknown hreads hmem
  · exact hknown hreads hmem

/-- A message reaches the handler of the command it spells, or the error handler if it spells none,
exactly if it is not misread. -/
theorem rightHandler_iff (message : CString) :
    RightHandler message (scpi_setup.executeMessage message) ↔ ¬ Misread message := by
  rcases reads_or_unknown (headers (commands message)) with ⟨js, hreads⟩ | hunknown
  · by_cases hempty : headers (commands message) = [[]]
    · exact ⟨fun hright => absurd hright (not_rightHandler_of_empty hempty),
        fun hnot => absurd (Or.inl hempty) hnot⟩
    · have hmisread : Misread message ↔ Collides js (isQuery (commands message)) := by
        constructor
        · rintro (h | ⟨js', hreads', hcollides⟩)
          · exact absurd h hempty
          · rw [hreads.unique hreads']
            exact hcollides
        · exact fun h => Or.inr ⟨js, hreads, h⟩
      rw [hmisread, ← routed_right_iff hreads.lt, executeMessage_of_reads hreads]
      unfold RightHandler
      simp only [matchesCommand_iff hreads hempty]
  · have hexecute := executeMessage_of_unknown hunknown
    refine ⟨fun _ => not_misread_of_unknown hunknown, fun _ c => ?_⟩
    rw [hexecute]
    exact ⟨fun h => absurd h (Option.some_ne_none c).symm,
      fun h => absurd h (not_matches_of_unknown hunknown c)⟩

/-- A line calls the right handlers, message by message, exactly if none of its messages is
misread. -/
theorem line_right_iff (line : CString) :
    List.Forall₂ RightHandler (line.splitOn ';') (scpi_setup.Execute line) ↔
      ∀ message ∈ line.splitOn ';', ¬ Misread message := by
  unfold Execute
  generalize line.splitOn ';' = messages
  induction messages with
  | nil => simp
  | cons message messages ih =>
      rw [List.map_cons, List.forall₂_cons, rightHandler_iff, ih]
      simp

/-- The keyword `VOLT` alone sets the source voltage. -/
theorem volt_alone_sources_voltage :
    ¬ List.Forall₂ RightHandler ("VOLT 5000".toList.splitOn ';')
      (scpi_setup.Execute "VOLT 5000".toList) := by
  have hmessages : "VOLT 5000".toList.splitOn ';' = ["VOLT 5000".toList] := by decide +kernel
  have hcalled : scpi_setup.Execute "VOLT 5000".toList = [some .sourceVoltageSCPI] := by
    decide +kernel
  have hlength : (headers (path "VOLT 5000".toList)).length = 1 := by decide +kernel
  rw [hmessages, hcalled]
  intro h
  cases h with
  | cons hright _ =>
      have hmatches := (hright .sourceVoltageSCPI).1 rfl
      have heq := hmatches.2.length_eq
      rw [hlength] at heq
      cases heq

end Scpi
end PoorMansSmu
