import Mathlib.Data.List.Perm.Basic
import CryptoTrading.Lib.Run

/-!
# Items in transit

Items wait in a queue until a carrier takes all that are there.  A carrier delivers its load, or
comes back with it and puts it in front of the queue.  There are any number of carriers, and they
move in any order.

Nothing is lost and nothing is doubled: at any time what waits, what is carried and what has
arrived is a rearrangement of what has been put in (`everything_run`), and with nothing on the way
it has all arrived (`arrived_eq_everything`).
-/

namespace CryptoTrading.Lib

variable {α : Type}

structure Transit (α : Type) where
  waiting : List α
  carried : List (List α)
  arrived : List α

namespace Transit

inductive Move (α : Type) where
  | put (x : α)
  /-- A carrier joins, without a load. -/
  | join
  /-- A carrier takes all that wait. -/
  | depart (carrier : ℕ)
  | arrive (carrier : ℕ)
  /-- A carrier comes back with its load. -/
  | giveBack (carrier : ℕ)

def load (t : Transit α) (carrier : ℕ) : List α := t.carried[carrier]?.getD []

def move (t : Transit α) : Move α → Transit α
  | .put x => { t with waiting := t.waiting ++ [x] }
  | .join => { t with carried := t.carried ++ [[]] }
  | .depart i =>
    if i < t.carried.length then
      { t with waiting := [], carried := t.carried.set i (t.load i ++ t.waiting) }
    else t
  | .arrive i => { t with carried := t.carried.set i [], arrived := t.arrived ++ t.load i }
  | .giveBack i => { t with waiting := t.load i ++ t.waiting, carried := t.carried.set i [] }

/-- What a move brings in. -/
def Move.new : Move α → List α
  | .put x => [x]
  | _ => []

def everything (t : Transit α) : List α := t.waiting ++ t.carried.flatten ++ t.arrived

/-- Changing one load. -/
theorem flatten_set_perm {loads : List (List α)} {i : ℕ} (hi : i < loads.length)
    (newLoad : List α) :
    (loads[i] ++ (loads.set i newLoad).flatten).Perm (newLoad ++ loads.flatten) := by
  induction loads generalizing i with
  | nil => exact absurd hi (Nat.not_lt_zero i)
  | cons first rest ih =>
    cases i with
    | zero =>
      simp only [List.getElem_cons_zero, List.set_cons_zero, List.flatten_cons]
      exact List.perm_append_comm_assoc first newLoad rest.flatten
    | succ i =>
      simp only [List.getElem_cons_succ, List.set_cons_succ, List.flatten_cons]
      have hi' : i < rest.length := Nat.lt_of_succ_lt_succ hi
      have hrest := ih hi'
      have hfront := List.perm_append_comm_assoc rest[i] first (rest.set i newLoad).flatten
      exact hfront.trans ((hrest.append_left first).trans (List.perm_append_comm_assoc _ _ _))

theorem load_of_lt {t : Transit α} {i : ℕ} (hi : i < t.carried.length) :
    t.load i = t.carried[i] := by
  rw [load, List.getElem?_eq_getElem hi, Option.getD_some]

/-- Taking a load away leaves the rest. -/
theorem flatten_unload_perm (t : Transit α) (i : ℕ) :
    (t.load i ++ (t.carried.set i []).flatten).Perm t.carried.flatten := by
  by_cases hi : i < t.carried.length
  · rw [load_of_lt hi]
    exact flatten_set_perm hi []
  · have hlen : t.carried.length ≤ i := Nat.le_of_not_lt hi
    rw [load, List.getElem?_eq_none hlen, List.set_eq_of_length_le hlen]
    exact .refl _

/-- **A move brings in what is new and keeps everything.** -/
theorem everything_move (t : Transit α) (m : Move α) :
    (t.move m).everything.Perm (m.new ++ t.everything) := by
  classical
  -- places are counted one by one, and a move shifts a load from one count to another
  refine List.perm_iff_count.mpr fun x => ?_
  cases m with
  | put y =>
    simp only [move, everything, Move.new, List.count_append]
    omega
  | join => simp [move, everything, Move.new]
  | depart i =>
    by_cases hi : i < t.carried.length
    · have hset := (flatten_set_perm hi (t.load i ++ t.waiting)).count_eq x
      simp only [move, if_pos hi, load_of_lt hi, everything, Move.new, List.count_append,
        List.count_nil] at hset ⊢
      omega
    · simp only [move, if_neg hi, Move.new, List.nil_append]
  | arrive i =>
    have hunload := (flatten_unload_perm t i).count_eq x
    simp only [move, everything, Move.new, List.count_append, List.count_nil] at hunload ⊢
    omega
  | giveBack i =>
    have hunload := (flatten_unload_perm t i).count_eq x
    simp only [move, everything, Move.new, List.count_append, List.count_nil] at hunload ⊢
    omega

/-- **Nothing is lost and nothing is doubled**, in any order of moves. -/
theorem everything_run (t : Transit α) (ms : List (Move α)) :
    (run move t ms).everything.Perm (ms.flatMap Move.new ++ t.everything) := by
  induction ms generalizing t with
  | nil => exact .refl _
  | cons m rest ih =>
    rw [run_cons, List.flatMap_cons]
    refine (ih (t.move m)).trans (((everything_move t m).append_left _).trans ?_)
    rw [List.append_assoc]
    exact List.perm_append_comm_assoc _ _ _

/-- With nothing on the way, everything has arrived. -/
theorem arrived_eq_everything {t : Transit α} (hwaiting : t.waiting = [])
    (hcarried : ∀ l ∈ t.carried, l = []) : t.arrived = t.everything := by
  have hflat : t.carried.flatten = [] := List.flatten_eq_nil_iff.mpr hcarried
  rw [everything, hwaiting, hflat]
  rfl

end Transit

end CryptoTrading.Lib
