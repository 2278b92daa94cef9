import PoorMansSmu.Stats

/-!
# StatsBlocks — which samples a trend point is made of

Every sample is numbered as it arrives, and `Account` follows the samples into the preliminary
buffer and from there into the trend points.  A stored block is in order when it is made of the
samples that arrived since the block before was stored or the buffer was cleared, of all of them and
of no others.

`clearBuffer` clears the trend points but not the preliminary buffer, and
`setNrOfSamplesBeforeStore` may go below the number of samples that wait there.  By
`always_accounted_iff` these are the only ways to get blocks that are not in order.
-/

namespace PoorMansSmu
namespace StatsBlocks

open Stats Run

/-! ## The account -/

/-- A sample and its number. -/
abbrev Sample := ℕ × ℚ

structure Block where
  /-- The trend point stored. -/
  point : ℚ × ℚ × ℚ
  /-- What stood in the places it was computed from; `none` where nothing was written. -/
  sources : List (Option Sample)
  /-- The samples since the block before was stored or the buffer was cleared. -/
  since : List Sample

structure Account where
  stats : StatsClass
  /-- The number of samples so far. -/
  added : ℕ := 0
  /-- The samples in the preliminary buffer. -/
  places : ℕ → Option Sample := fun _ => none
  /-- The samples since a block was stored or the buffer was cleared. -/
  since : List Sample := []
  stored : List Block := []

inductive Event
  | addSample (rawValue_ : ℚ)
  | setNrOfSamplesBeforeStore (n : ℤ)
  | clearBuffer

namespace Account

/-- A sample arrives in the buffer. -/
def arrive (a : Account) (rawValue_ : ℚ) : Account :=
  { a with
    stats := a.stats.addSample rawValue_
    added := a.added + 1
    places := Function.update a.places a.stats.prelimSamplesCounter (some (a.added, rawValue_))
    since := a.since ++ [(a.added, rawValue_)] }

/-- The block that a sample completes. -/
def block (a : Account) (rawValue_ : ℚ) : Block where
  point := (a.stats.addSample rawValue_).point a.stats.endPtr
  sources := (List.range a.stats.maxSamplesBeforeStore).map (a.arrive rawValue_).places
  since := (a.arrive rawValue_).since

def addSample (a : Account) (rawValue_ : ℚ) : Account :=
  if a.stats.prelimSamplesCounter + 1 < a.stats.maxSamplesBeforeStore then a.arrive rawValue_
  else { a.arrive rawValue_ with since := [], stored := a.stored ++ [a.block rawValue_] }

end Account

def step (a : Account) : Event → Account
  | .addSample rawValue_ => a.addSample rawValue_
  | .setNrOfSamplesBeforeStore n => { a with stats := a.stats.setNrOfSamplesBeforeStore n }
  | .clearBuffer => { a with stats := a.stats.clearBuffer, since := [] }

/-- After `init`. -/
def begin (prelimBuffer value : ℕ → ℚ) (valueExt : ℕ → ℚ × ℚ) : Account where
  stats := (boot prelimBuffer value valueExt).init

/-- The block is made of the samples since the one before, and its point says so. -/
def Block.InOrder (b : Block) : Prop :=
  b.sources = b.since.map some ∧ b.point = summary (b.since.map Prod.snd)

instance (b : Block) : Decidable b.InOrder := inferInstanceAs (Decidable (_ ∧ _))

/-- All blocks are in order, and the next sample has a place in the buffer. -/
def Accounted (a : Account) : Prop :=
  (∀ b ∈ a.stored, b.InOrder) ∧ a.stats.prelimSamplesCounter < MAX_PRELIMBUFFER_SIZE

instance : DecidablePred Accounted := fun _ => inferInstanceAs (Decidable (_ ∧ _))

/-- A sample that completes a block finds all samples waiting that have come since the block before,
no others, and the last place of the block free. -/
def Complete (a : Account) : Event → Prop
  | .addSample _ =>
      a.stats.prelimSamplesCounter + 1 < a.stats.maxSamplesBeforeStore ∨
        (a.stats.prelimSamplesCounter + 1 = a.stats.maxSamplesBeforeStore ∧
          a.since.length = a.stats.prelimSamplesCounter)
  | _ => True

instance (a : Account) (e : Event) : Decidable (Complete a e) := by
  cases e <;> unfold Complete <;> infer_instance

/-! ## The invariant -/

structure Inv (a : Account) : Prop where
  size : 1 ≤ a.stats.maxSamplesBeforeStore ∧ a.stats.maxSamplesBeforeStore ≤ MAX_PRELIMBUFFER_SIZE
  room : a.stats.prelimSamplesCounter < MAX_PRELIMBUFFER_SIZE
  /-- The samples waiting, with their numbers. -/
  waiting : ∀ i < a.stats.prelimSamplesCounter,
    ∃ n < a.added, a.places i = some (n, a.stats.prelimBuffer i)
  /-- What has come since is waiting, at the end of the buffer. -/
  since : a.since.map some <:+ (List.range a.stats.prelimSamplesCounter).map a.places
  inOrder : ∀ b ∈ a.stored, b.InOrder

theorem begin_inv (prelimBuffer value : ℕ → ℚ) (valueExt : ℕ → ℚ × ℚ) :
    Inv (begin prelimBuffer value valueExt) where
  size := ⟨Nat.succ_pos 4, Nat.le_add_left 5 995⟩
  room := Nat.succ_pos _
  waiting := by
    intro i hi
    exact absurd hi (Nat.not_lt_zero i)
  since := List.suffix_rfl
  inOrder := by
    intro b hb
    exact absurd hb List.not_mem_nil

/-- Whatever is asked for, a block has between one and a thousand samples. -/
theorem setNrOfSamplesBeforeStore_size (s : StatsClass) (n : ℤ) :
    1 ≤ (s.setNrOfSamplesBeforeStore n).maxSamplesBeforeStore ∧
      (s.setNrOfSamplesBeforeStore n).maxSamplesBeforeStore ≤ MAX_PRELIMBUFFER_SIZE := by
  have hplaces : MAX_PRELIMBUFFER_SIZE = 1000 := rfl
  unfold StatsClass.setNrOfSamplesBeforeStore
  simp only [hplaces]
  split_ifs <;> omega

theorem arrive_places (a : Account) (x : ℚ) :
    (List.range (a.stats.prelimSamplesCounter + 1)).map (a.arrive x).places =
      (List.range a.stats.prelimSamplesCounter).map a.places ++ [some (a.added, x)] := by
  have hold : (List.range a.stats.prelimSamplesCounter).map (a.arrive x).places =
      (List.range a.stats.prelimSamplesCounter).map a.places := by
    refine List.map_congr_left fun i hi => ?_
    exact Function.update_of_ne (Nat.ne_of_lt (List.mem_range.1 hi)) _ _
  have hnew : (a.arrive x).places a.stats.prelimSamplesCounter = some (a.added, x) :=
    Function.update_self ..
  rw [List.range_succ, List.map_append, hold, List.map_singleton, hnew]

section Arrive

variable {a : Account} (h : Inv a) (x : ℚ)

include h

/-- The samples waiting, with a new one behind them. -/
theorem Inv.arrive_waiting : ∀ i < a.stats.prelimSamplesCounter + 1,
    ∃ n < a.added + 1,
      (a.arrive x).places i = some (n, (a.stats.bufferSample x).prelimBuffer i) := by
  intro i hi
  rcases Nat.lt_or_eq_of_le (Nat.le_of_lt_succ hi) with hold | rfl
  · obtain ⟨n, hn, hplace⟩ := h.waiting i hold
    have hother : i ≠ a.stats.prelimSamplesCounter := Nat.ne_of_lt hold
    refine ⟨n, Nat.lt_succ_of_lt hn, ?_⟩
    simp only [Account.arrive, StatsClass.bufferSample, Function.update_of_ne hother, hplace]
  · refine ⟨a.added, Nat.lt_succ_self _, ?_⟩
    simp only [Account.arrive, StatsClass.bufferSample, Function.update_self]

/-- What has come since, with the new sample behind it. -/
theorem Inv.arrive_since :
    (a.arrive x).since.map some <:+
      (List.range (a.stats.prelimSamplesCounter + 1)).map (a.arrive x).places := by
  rw [arrive_places, Account.arrive, List.map_append, List.map_singleton]
  obtain ⟨before, hbefore⟩ := h.since
  refine ⟨before, ?_⟩
  rw [← List.append_assoc, hbefore]

/-- The places of a full buffer hold the samples of the block. -/
theorem Inv.arrive_values (hall : (a.arrive x).since.map some =
    (List.range (a.stats.prelimSamplesCounter + 1)).map (a.arrive x).places) :
    (a.arrive x).since.map Prod.snd =
      (List.range (a.stats.prelimSamplesCounter + 1)).map
        (a.stats.bufferSample x).prelimBuffer := by
  have hplaces : (a.arrive x).since.map Prod.snd =
      ((a.arrive x).since.map some).map fun p => (p.map Prod.snd).getD 0 := by
    rw [List.map_map]
    rfl
  rw [hplaces, hall, List.map_map]
  refine List.map_congr_left fun i hi => ?_
  obtain ⟨n, -, hplace⟩ := h.arrive_waiting x i (List.mem_range.1 hi)
  simp only [Function.comp_apply, hplace, Option.map_some, Option.getD_some]

/-- The newest sample is not in a place that was taken before: a sample there has a smaller
number. -/
theorem Inv.le_of_places {i : ℕ} (hplace : (a.arrive x).places i = some (a.added, x)) :
    a.stats.prelimSamplesCounter ≤ i := by
  by_contra hlt
  obtain ⟨n, hn, hold⟩ := h.waiting i (by omega)
  have hother : i ≠ a.stats.prelimSamplesCounter := by omega
  simp only [Account.arrive, Function.update_of_ne hother, hold] at hplace
  have hnumber : n = a.added := congrArg Prod.fst (Option.some.inj hplace)
  omega

/-- A block that is completed is in order exactly when its last place was free for the sample that
completes it, and all that waited had come since. -/
theorem Inv.block_inOrder_iff
    (hfull : a.stats.maxSamplesBeforeStore ≤ a.stats.prelimSamplesCounter + 1) :
    (a.block x).InOrder ↔
      a.stats.prelimSamplesCounter + 1 = a.stats.maxSamplesBeforeStore ∧
        a.since.length = a.stats.prelimSamplesCounter := by
  have hpos := h.size.1
  constructor
  · rintro ⟨hsources, -⟩
    simp only [Account.block] at hsources
    have hlength := congrArg List.length hsources
    simp only [List.length_map, List.length_range, Account.arrive, List.length_append,
      List.length_singleton] at hlength
    -- the last place of the block holds the new sample, and that is only at `prelimSamplesCounter`
    have hlast : (a.arrive x).places (a.stats.maxSamplesBeforeStore - 1) = some (a.added, x) := by
      have hget := congrArg (fun l => l[a.stats.maxSamplesBeforeStore - 1]?) hsources
      have hplace : a.stats.maxSamplesBeforeStore - 1 = a.since.length := by omega
      simp only [List.getElem?_map, List.getElem?_range (show
        a.stats.maxSamplesBeforeStore - 1 < a.stats.maxSamplesBeforeStore by omega)] at hget
      rw [Account.arrive] at hget ⊢
      simpa [hplace] using hget
    have hfree := h.le_of_places x hlast
    constructor <;> omega
  · rintro ⟨hsize, hsince⟩
    -- what has come since fills the end of the buffer, and here all of it
    have hall : (a.arrive x).since.map some =
        (List.range (a.stats.prelimSamplesCounter + 1)).map (a.arrive x).places := by
      apply (h.arrive_since x).eq_of_length
      simp [Account.arrive, hsince]
    have hvalues := h.arrive_values x hall
    constructor
    · simp only [Account.block]
      rw [← hsize, hall]
    · have hlength : ((a.arrive x).since.map Prod.snd).length = a.stats.maxSamplesBeforeStore := by
        rw [hvalues, List.length_map, List.length_range, hsize]
      have hpoint := point_storeBlock (s := a.stats.bufferSample x) hlength (by omega)
        (by rw [hlength, ← hsize, hvalues])
      simp only [Account.block, addSample_of_ge hfull, completeBlock_eq]
      exact (congrFun hpoint a.stats.endPtr).trans (Function.update_self ..)

/-- A sample that waits. -/
theorem Inv.wait (hshort : a.stats.prelimSamplesCounter + 1 < a.stats.maxSamplesBeforeStore) :
    Inv (a.arrive x) := by
  have hstats : (a.arrive x).stats = a.stats.bufferSample x := addSample_of_lt hshort x
  have hsize := h.size
  constructor
  case size =>
    rw [hstats]
    exact h.size
  case room =>
    rw [hstats]
    exact Nat.lt_of_lt_of_le hshort hsize.2
  case waiting =>
    rw [hstats]
    exact h.arrive_waiting x
  case since =>
    rw [hstats]
    exact h.arrive_since x
  case inOrder => exact h.inOrder

/-- A sample that completes a block. -/
theorem Inv.complete (hfull : a.stats.maxSamplesBeforeStore ≤ a.stats.prelimSamplesCounter + 1)
    (hblock : (a.block x).InOrder) :
    Inv { a.arrive x with since := [], stored := a.stored ++ [a.block x] } := by
  have hstats : (a.arrive x).stats = (a.stats.bufferSample x).completeBlock :=
    addSample_of_ge hfull x
  rw [completeBlock_eq] at hstats
  constructor
  case size =>
    simp only [hstats]
    exact h.size
  case room =>
    simp only [hstats]
    exact Nat.succ_pos _
  case waiting =>
    simp only [hstats]
    intro i hi
    exact absurd hi (Nat.not_lt_zero i)
  case since => exact List.nil_suffix
  case inOrder =>
    intro b hb
    rcases List.mem_append.1 hb with hold | hnew
    · exact h.inOrder b hold
    · rw [List.mem_singleton.1 hnew]
      exact hblock

end Arrive

/-! ## Runs -/

theorem Inv.accounted {a : Account} (h : Inv a) : Accounted a := ⟨h.inOrder, h.room⟩

theorem Inv.step {a : Account} (h : Inv a) {e : Event} (hok : Complete a e) : Inv (step a e) := by
  cases e with
  | addSample x =>
      by_cases hshort : a.stats.prelimSamplesCounter + 1 < a.stats.maxSamplesBeforeStore
      · rw [StatsBlocks.step, Account.addSample, if_pos hshort]
        exact h.wait x hshort
      · rw [StatsBlocks.step, Account.addSample, if_neg hshort]
        have hfull := Nat.le_of_not_lt hshort
        exact h.complete x hfull ((h.block_inOrder_iff x hfull).2 (hok.resolve_left hshort))
  | setNrOfSamplesBeforeStore n =>
      exact { h with size := setNrOfSamplesBeforeStore_size a.stats n }
  | clearBuffer =>
      -- samples that wait keep their places
      exact { h with since := List.nil_suffix }

/-- A block that is not in order is stored all the same. -/
theorem Inv.not_accounted {a : Account} (h : Inv a) {e : Event} (hok : ¬ Complete a e) :
    ¬ Accounted (StatsBlocks.step a e) := by
  cases e with
  | addSample x =>
      obtain ⟨hshort, hspoiled⟩ := not_or.1 hok
      rw [StatsBlocks.step, Account.addSample, if_neg hshort]
      rintro ⟨hblocks, -⟩
      have hblock := hblocks (a.block x) (by simp)
      exact hspoiled ((h.block_inOrder_iff x (Nat.le_of_not_lt hshort)).1 hblock)
  | setNrOfSamplesBeforeStore n => exact absurd trivial hok
  | clearBuffer => exact absurd trivial hok

/-- The blocks account for all samples as long as every sample that completes a block finds all of
them waiting. -/
theorem always_accounted_iff (prelimBuffer value : ℕ → ℚ) (valueExt : ℕ → ℚ × ℚ)
    (es : List Event) :
    Always step Accounted (begin prelimBuffer value valueExt) es ↔
      Guarded step Complete (begin prelimBuffer value valueExt) es :=
  always_iff_guarded (fun _ h => h.accounted) (fun _ _ h hok => h.step hok)
    (fun _ _ h hok => h.not_accounted hok) (begin_inv prelimBuffer value valueExt) es

/-- A sample that waits while the buffer is cleared goes into the first block after that. -/
theorem not_always_accounted :
    ¬ ∀ es, Always step Accounted (begin (fun _ => 0) (fun _ => 0) fun _ => (0, 0)) es := by
  intro h
  have hrun := h [.setNrOfSamplesBeforeStore 2, .addSample 1, .clearBuffer, .addSample 3]
  revert hrun
  decide +kernel

end StatsBlocks
end PoorMansSmu
