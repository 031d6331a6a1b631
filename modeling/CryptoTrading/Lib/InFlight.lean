import Mathlib.Data.Set.Insert

/-!
# Messages under way about a versioned register

A register holds a value and a version that grows with every write.  A write that changes
the value sends a message with both; a reader keeps the value of the last message it got
and does not look at versions.

`Converging` is what makes such a reader trustworthy: the newest message under way carries
the current value, and a reader with nothing under way holds it.  Writes keep this up
whatever they do.  A delivery keeps it up when no older message is left behind.
-/

namespace CryptoTrading.Lib

variable {V : Type}

/-- The reader has `seen`, or will get, the current value of the register. -/
structure Converging (version : ℕ) (value seen : V) (flight : Set (ℕ × V)) : Prop where
  bounded : ∀ m ∈ flight, m.1 ≤ version
  newest : ∀ m ∈ flight, (∀ m' ∈ flight, m'.1 ≤ m.1) → m.2 = value
  settled : flight = ∅ → seen = value

namespace Converging

variable {version : ℕ} {value seen : V} {flight : Set (ℕ × V)}

/-- Nothing is under way, and the reader is right. -/
theorem rest (h : seen = value) : Converging version value seen ∅ where
  bounded := by simp
  newest := by simp
  settled := fun _ => h

/-- The first write of a register nobody has heard of. -/
theorem first (value' : V) : Converging version value' seen {(version, value')} where
  bounded := by simp
  newest := by simp
  settled := fun h => absurd h (Set.singleton_ne_empty _)

/-- A write that sends its message. -/
theorem write (h : Converging version value seen flight) (value' : V) :
    Converging (version + 1) value' seen (insert (version + 1, value') flight) where
  bounded := by
    intro m hm
    rcases hm with rfl | hm
    · exact le_refl _
    · exact (h.bounded m hm).trans (Nat.le_succ _)
  newest := by
    intro m hm hmax
    rcases hm with rfl | hm
    · rfl
    · -- an older message is not the newest one
      have hlt := hmax _ (Set.mem_insert _ _)
      have hle := h.bounded m hm
      exact absurd hlt (by omega)
  settled := fun hempty => absurd hempty (Set.insert_nonempty _ _).ne_empty

/-- A write of the value that is there, without a message. -/
theorem touch (h : Converging version value seen flight) :
    Converging (version + 1) value seen flight where
  bounded := fun m hm => (h.bounded m hm).trans (Nat.le_succ _)
  newest := h.newest
  settled := h.settled

/-- Delivering a message, with no older one left behind. -/
theorem deliver {m : ℕ × V} (h : Converging version value seen (insert m flight))
    (holdest : ∀ m' ∈ flight, m.1 ≤ m'.1) : Converging version value m.2 flight where
  bounded := fun m' hm' => h.bounded m' (Set.mem_insert_of_mem _ hm')
  newest := by
    intro m' hm' hmax
    refine h.newest m' (Set.mem_insert_of_mem _ hm') ?_
    intro m'' hm''
    rcases hm'' with rfl | hm''
    · exact holdest m' hm'
    · exact hmax m'' hm''
  settled := by
    intro hempty
    refine h.newest m (Set.mem_insert _ _) ?_
    intro m' hm'
    rcases hm' with rfl | hm'
    · exact le_refl _
    · rw [hempty] at hm'
      exact absurd hm' (Set.notMem_empty _)

end Converging

end CryptoTrading.Lib
