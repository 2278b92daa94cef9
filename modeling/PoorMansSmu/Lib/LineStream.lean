import Mathlib.Data.List.Basic

/-!
# LineStream — streams that a terminator cuts into lines

A stream is a list over an alphabet `α` with a terminator `t : α`.  Its lines are the parts that the
terminator ends; what follows the last terminator is no line yet.  Nothing here mentions a particular
program.
-/

namespace PoorMansSmu
namespace LineStream

variable {α : Type*} (t : α)

/-- The stream of some lines. -/
def join (ls : List (List α)) : List α := ls.flatMap fun l => l ++ [t]

theorem join_cons (l : List α) (ls : List (List α)) : join t (l :: ls) = l ++ t :: join t ls := by
  simp [join]

theorem join_concat (ls : List (List α)) (l : List α) :
    join t (ls ++ [l]) = join t ls ++ (l ++ [t]) := by
  simp [join]

theorem join_append (ls ls' : List (List α)) : join t (ls ++ ls') = join t ls ++ join t ls' :=
  List.flatMap_append

variable {t} in
/-- A line that begins a stream of known lines is the first of them. -/
theorem line_of_begun {l l' rest more : List α} (hl : t ∉ l) (hl' : t ∉ l')
    (h : l ++ t :: rest <+: l' ++ t :: more) : l = l' ∧ rest <+: more := by
  induction l generalizing l' with
  | nil =>
      cases l' with
      | nil => exact ⟨rfl, (List.cons_prefix_cons.1 h).2⟩
      | cons c l' =>
          have hc : t = c := (List.cons_prefix_cons.1 h).1
          exact absurd (hc ▸ List.mem_cons_self) hl'
  | cons c l ih =>
      cases l' with
      | nil =>
          have hc : c = t := (List.cons_prefix_cons.1 h).1
          exact absurd (hc ▸ List.mem_cons_self) hl
      | cons c' l' =>
          obtain ⟨rfl, hrest⟩ := List.cons_prefix_cons.1 h
          obtain ⟨rfl, hmore⟩ := ih (fun hmem => hl (List.mem_cons_of_mem c hmem))
            (fun hmem => hl' (List.mem_cons_of_mem c hmem)) hrest
          exact ⟨rfl, hmore⟩

variable [DecidableEq α]

/-- The lines of a stream, the first of which begins with `buffer`. -/
def linesFrom (buffer : List α) : List α → List (List α)
  | [] => []
  | c :: rest => if c = t then buffer :: linesFrom [] rest else linesFrom (buffer ++ [c]) rest

/-- The lines of a stream, in order, without their terminators. -/
def lines (s : List α) : List (List α) := linesFrom t [] s

variable {t}

theorem linesFrom_line {l : List α} (h : t ∉ l) (buffer rest : List α) :
    linesFrom t buffer (l ++ t :: rest) = (buffer ++ l) :: lines t rest := by
  induction l generalizing buffer with
  | nil => simp [linesFrom, lines]
  | cons c l ih =>
      have hc : c ≠ t := fun heq => h (heq ▸ List.mem_cons_self)
      rw [List.cons_append, linesFrom, if_neg hc, ih (fun hl => h (List.mem_cons_of_mem c hl)),
        List.append_assoc]
      rfl

/-- The first line, and then the others. -/
theorem lines_line {l : List α} (h : t ∉ l) (rest : List α) :
    lines t (l ++ t :: rest) = l :: lines t rest :=
  linesFrom_line h [] rest

/-- Where a stream is cut behind a terminator, its lines are those of the two parts. -/
theorem lines_join_append {ls : List (List α)} (h : ∀ l ∈ ls, t ∉ l) (s : List α) :
    lines t (join t ls ++ s) = ls ++ lines t s := by
  induction ls with
  | nil => rfl
  | cons l ls ih =>
      have hl : t ∉ l := h l List.mem_cons_self
      have hls : ∀ l' ∈ ls, t ∉ l' := fun l' hl' => h l' (List.mem_cons_of_mem l hl')
      calc lines t (join t (l :: ls) ++ s)
          = lines t (l ++ t :: (join t ls ++ s)) := by rw [join_cons, List.append_assoc]; rfl
        _ = l :: lines t (join t ls ++ s) := lines_line hl _
        _ = l :: ls ++ lines t s := by rw [ih hls]; rfl

theorem count_join {ls : List (List α)} (h : ∀ l ∈ ls, t ∉ l) : (join t ls).count t = ls.length := by
  induction ls with
  | nil => rfl
  | cons l ls ih =>
      have hl : l.count t = 0 := List.count_eq_zero.2 (h l List.mem_cons_self)
      rw [join_cons, List.count_append, hl, List.count_cons_self,
        ih fun l' hl' => h l' (List.mem_cons_of_mem l hl'), Nat.zero_add, List.length_cons]

end LineStream
end PoorMansSmu
