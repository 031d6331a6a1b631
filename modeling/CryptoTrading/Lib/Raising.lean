/-!
# Changes in place that may raise

A method that changes its object and may raise leaves the object as it was when the error was
raised.  It is a function to the state afterwards and the error, if there is one; what follows
runs on that state only when there is none (`andThen`), and a loop stops at the first error
(`forEach`).

A loop that raises has finished a prefix of its list (`forEach_raises`), and what each round
preserves, raising or not, the loop preserves (`forEach_invariant`).
-/

namespace CryptoTrading.Lib

variable {S T A E : Type}

/-- The state afterwards, and the error if one was raised. -/
abbrev Raising (S E : Type) := S × Option E

/-- Go on from the state, unless an error was raised. -/
def andThen (r : Raising S E) (next : S → Raising S E) : Raising S E :=
  match r.2 with
  | none => next r.1
  | some error => (r.1, some error)

@[simp] theorem andThen_none (s : S) (next : S → Raising S E) :
    andThen (s, none) next = next s := rfl

@[simp] theorem andThen_some (s : S) (error : E) (next : S → Raising S E) :
    andThen (s, some error) next = (s, some error) := rfl

theorem andThen_of_returns {r : Raising S E} (h : r.2 = none) (next : S → Raising S E) :
    andThen r next = next r.1 := by
  unfold andThen
  rw [h]

theorem andThen_of_raises {r : Raising S E} {error : E} (h : r.2 = some error)
    (next : S → Raising S E) : andThen r next = (r.1, some error) := by
  unfold andThen
  rw [h]

/-- One round for each element, up to the first error. -/
def forEach (round : S → A → Raising S E) : S → List A → Raising S E
  | s, [] => (s, none)
  | s, a :: rest => andThen (round s a) fun s' => forEach round s' rest

@[simp] theorem forEach_nil (round : S → A → Raising S E) (s : S) :
    forEach round s [] = (s, none) := rfl

@[simp] theorem forEach_cons (round : S → A → Raising S E) (s : S) (a : A) (rest : List A) :
    forEach round s (a :: rest) = andThen (round s a) fun s' => forEach round s' rest := rfl

theorem forEach_append (round : S → A → Raising S E) (s : S) (as bs : List A) :
    forEach round s (as ++ bs) =
      andThen (forEach round s as) fun s' => forEach round s' bs := by
  induction as generalizing s with
  | nil => rfl
  | cons a rest ih =>
    rw [List.cons_append, forEach_cons, forEach_cons]
    cases herror : (round s a).2 with
    | none => rw [andThen_of_returns herror, andThen_of_returns herror, ih]
    | some error => rw [andThen_of_raises herror, andThen_of_raises herror, andThen_some]

/-- The loop raises in the round of one element, after the rounds of those before it. -/
theorem forEach_raises {round : S → A → Raising S E} {s : S} {as : List A} {error : E}
    (h : (forEach round s as).2 = some error) :
    ∃ done a rest, as = done ++ a :: rest ∧ (forEach round s done).2 = none ∧
      (round (forEach round s done).1 a).2 = some error ∧
      (forEach round s as).1 = (round (forEach round s done).1 a).1 := by
  induction as generalizing s with
  | nil => cases h
  | cons a rest ih =>
    rw [forEach_cons] at h ⊢
    cases herror : (round s a).2 with
    | some error' =>
      rw [andThen_of_raises herror] at h ⊢
      exact ⟨[], a, rest, rfl, rfl, herror.trans h, rfl⟩
    | none =>
      rw [andThen_of_returns herror] at h ⊢
      obtain ⟨done, a', rest', rfl, hdone, hraises, hstate⟩ := ih h
      have hcons : forEach round s (a :: done) = forEach round (round s a).1 done := by
        rw [forEach_cons, andThen_of_returns herror]
      exact ⟨a :: done, a', rest', rfl, by rw [hcons, hdone], by rw [hcons, hraises],
        by rw [hcons, hstate]⟩

/-- What each round preserves, raising or not, the loop preserves. -/
theorem forEach_invariant {round : S → A → Raising S E} (Inv : S → Prop)
    (hround : ∀ s a, Inv s → Inv (round s a).1) {s : S} (h : Inv s) (as : List A) :
    Inv (forEach round s as).1 := by
  induction as generalizing s with
  | nil => exact h
  | cons a rest ih =>
    rw [forEach_cons]
    cases herror : (round s a).2 with
    | none =>
      rw [andThen_of_returns herror]
      exact ih (hround s a h)
    | some error =>
      rw [andThen_of_raises herror]
      exact hround s a h

/-- Two loops whose rounds keep a relation and raise alike keep it and raise alike. -/
theorem forEach_alike {round : S → A → Raising S E} {round' : T → A → Raising T E}
    (Alike : S → T → Prop)
    (hround : ∀ s t a, Alike s t → Alike (round s a).1 (round' t a).1 ∧
      (round s a).2 = (round' t a).2) {s : S} {t : T} (h : Alike s t) (as : List A) :
    Alike (forEach round s as).1 (forEach round' t as).1 ∧
      (forEach round s as).2 = (forEach round' t as).2 := by
  induction as generalizing s t with
  | nil => exact ⟨h, rfl⟩
  | cons a rest ih =>
    obtain ⟨halike, hsame⟩ := hround s t a h
    rw [forEach_cons, forEach_cons]
    cases herror : (round s a).2 with
    | none =>
      rw [andThen_of_returns herror, andThen_of_returns (hsame ▸ herror)]
      exact ih halike
    | some error =>
      rw [andThen_of_raises herror, andThen_of_raises (hsame ▸ herror)]
      exact ⟨halike, rfl⟩

end CryptoTrading.Lib
