import CryptoTrading.Agent.ConfigurationPaths
import CryptoTrading.Lib.Framing
import Mathlib.Data.List.Sort
import Mathlib.Data.String.Basic

/-!
# The text of the metadata of a commit

Embeds the call of `json.dumps` with which `Hashing.compute_commit_hash` in
`src/vcs/core/hashing.py` writes the metadata: keys sorted, separators without blanks, and
characters beyond ASCII as they are.

The texts of numbers are a parameter (`NumberText`): no two numbers have one text, and it has
only the characters that JSON allows in a number.  Every text of a value ends by itself
(`readable_dumps`) and has no line break (`newline_not_mem_dumps`).
-/

namespace CryptoTrading.Vcs.Hashing

open CryptoTrading.Lib
open CryptoTrading.Agent.Configuration (Json Fields)

variable {N : Type}

/-! ## §1 Texts -/

def isNumberChar (c : Char) : Bool := c.isDigit || ['-', '+', '.', 'e'].contains c

/-- How `json.dumps` writes a number. -/
structure NumberText (N : Type) where
  text : N → List Char
  text_injective : Function.Injective text
  text_ne_nil : ∀ n, text n ≠ []
  isNumberChar_text : ∀ n, ∀ c ∈ text n, isNumberChar c = true

/-- `ESCAPE_DCT`: the characters with an escape of their own. -/
def escapes : List (Char × Char) :=
  [('\\', '\\'), ('"', '"'), ('\x08', 'b'), ('\x0c', 'f'), ('\n', 'n'), ('\r', 'r'), ('\t', 't')]

/-- The replacement of one character; the other control characters are written in
    hexadecimal. -/
def escapeChar (c : Char) : List Char :=
  match escapes.lookup c with
  | some letter => ['\\', letter]
  | none =>
    if c.toNat < 0x20 then
      ['\\', 'u', '0', '0', Nat.digitChar (c.toNat / 16), Nat.digitChar (c.toNat % 16)]
    else [c]

/-- The text of a string. -/
def quoted (s : String) : List Char := '"' :: (s.toList.flatMap escapeChar ++ ['"'])

variable (T : NumberText N)

mutual

/-- `json.dumps` with the separators `,` and `:`, of a value whose keys are in order. -/
def dumps : Json N → List Char
  | .null => ['n', 'u', 'l', 'l']
  | .bool true => ['t', 'r', 'u', 'e']
  | .bool false => ['f', 'a', 'l', 's', 'e']
  | .number n => T.text n
  | .string s => quoted s
  | .list [] => ['[', ']']
  | .list (entry :: entries) => '[' :: (dumps entry ++ dumpsEntries entries)
  | .object [] => ['\x7b', '\x7d']
  | .object ((key, value) :: fields) =>
    '\x7b' :: (quoted key ++ ':' :: (dumps value ++ dumpsFields fields))

/-- The entries of a list after the first. -/
def dumpsEntries : List (Json N) → List Char
  | [] => [']']
  | entry :: entries => ',' :: (dumps entry ++ dumpsEntries entries)

/-- The entries of a dictionary after the first. -/
def dumpsFields : Fields N → List Char
  | [] => ['\x7d']
  | (key, value) :: fields => ',' :: (quoted key ++ ':' :: (dumps value ++ dumpsFields fields))

end

mutual

/-- `sort_keys`, which sorts the entries of the dictionaries on every level. -/
def sortKeys : Json N → Json N
  | .null => .null
  | .bool b => .bool b
  | .number n => .number n
  | .string s => .string s
  | .list entries => .list (sortKeysEntries entries)
  | .object fields => .object ((sortKeysFields fields).insertionSort fun f g => f.1 ≤ g.1)

def sortKeysEntries : List (Json N) → List (Json N)
  | [] => []
  | entry :: entries => sortKeys entry :: sortKeysEntries entries

def sortKeysFields : Fields N → Fields N
  | [] => []
  | (key, value) :: fields => (key, sortKeys value) :: sortKeysFields fields

end

/-- The text of an integer. -/
def integerDigits (n : ℤ) : List Char :=
  if n < 0 then '-' :: Nat.toDigits 10 n.natAbs else Nat.toDigits 10 n.natAbs

theorem toDigits_injective : Function.Injective (Nat.toDigits 10) := by
  intro m n h
  have hread := congrArg (fun digits => Nat.ofDigitChars 10 digits 0) h
  simpa only [Nat.ofDigitChars_toDigits (by decide : 1 < 10) (by decide : 10 ≤ 10)] using hread

theorem isDigit_of_mem_toDigits {n : ℕ} {c : Char} (h : c ∈ Nat.toDigits 10 n) :
    c.isDigit = true :=
  Nat.isDigit_of_mem_toDigits (by decide) (by decide) h

theorem minus_not_mem_toDigits (n : ℕ) : '-' ∉ Nat.toDigits 10 n := by
  intro h
  have hdigit := isDigit_of_mem_toDigits h
  revert hdigit
  decide

theorem integerDigits_injective : Function.Injective integerDigits := by
  intro m n h
  by_cases hm : m < 0 <;> by_cases hn : n < 0 <;>
    simp only [integerDigits, hm, hn, if_true, if_false] at h
  · have habs := toDigits_injective (List.cons.inj h).2
    omega
  · exact absurd (h ▸ List.mem_cons_self ..) (minus_not_mem_toDigits n.natAbs)
  · exact absurd (h ▸ List.mem_cons_self ..) (minus_not_mem_toDigits m.natAbs)
  · have habs := toDigits_injective h
    omega

theorem isNumberChar_integerDigits (n : ℤ) (c : Char) (h : c ∈ integerDigits n) :
    isNumberChar c = true := by
  have hdigits (hc : c ∈ Nat.toDigits 10 n.natAbs) : isNumberChar c = true := by
    simp [isNumberChar, isDigit_of_mem_toDigits hc]
  by_cases hn : n < 0 <;> simp only [integerDigits, hn, if_true, if_false] at h
  · rcases List.mem_cons.mp h with rfl | hc
    · decide
    · exact hdigits hc
  · exact hdigits h

theorem integerDigits_ne_nil (n : ℤ) : integerDigits n ≠ [] := by
  by_cases hn : n < 0 <;> simp [integerDigits, hn]

/-- Metadata without other numbers than integers. -/
def integerText : NumberText ℤ where
  text := integerDigits
  text_injective := integerDigits_injective
  text_ne_nil := integerDigits_ne_nil
  isNumberChar_text := isNumberChar_integerDigits

/-! ## §2 Strings -/

/-- The three ways to write a character. -/
theorem escapeChar_cases (c : Char) :
    (∃ letter, (c, letter) ∈ escapes ∧ escapeChar c = ['\\', letter]) ∨
      (c.toNat < 0x20 ∧ escapeChar c = ['\\', 'u', '0', '0', Nat.digitChar (c.toNat / 16),
        Nat.digitChar (c.toNat % 16)]) ∨
      (escapes.lookup c = none ∧ 0x20 ≤ c.toNat ∧ escapeChar c = [c]) := by
  cases hlookup : escapes.lookup c with
  | some letter =>
    have hmem : (c, letter) ∈ escapes := by
      obtain ⟨before, after, hsplit, -⟩ := List.lookup_eq_some_iff.mp hlookup
      rw [hsplit]
      exact List.mem_append_right before (List.mem_cons_self ..)
    exact Or.inl ⟨letter, hmem, by simp only [escapeChar, hlookup]⟩
  | none =>
    by_cases hcontrol : c.toNat < 0x20
    · exact Or.inr (Or.inl ⟨hcontrol, by simp only [escapeChar, hlookup, if_pos hcontrol]⟩)
    · exact Or.inr (Or.inr ⟨rfl, by omega, by simp only [escapeChar, hlookup, if_neg hcontrol]⟩)

theorem ne_backslash_of_lookup {c : Char} (h : escapes.lookup c = none) : c ≠ '\\' := by
  rintro rfl
  exact absurd h (by decide)

theorem escapes_letter_ne_u : ∀ p ∈ escapes, p.2 ≠ 'u' := by decide

theorem escapes_letter_injective : ∀ p ∈ escapes, ∀ q ∈ escapes, p.2 = q.2 → p.1 = q.1 := by
  decide

theorem digitChar_injective_below_16 :
    ∀ m < 16, ∀ n < 16, Nat.digitChar m = Nat.digitChar n → m = n := by
  decide

/-- The replacements of two characters differ before either of them ends. -/
theorem readable_escapeChar : Readable escapeChar fun _ => True := by
  intro c d rest rest' _ _ h
  -- three ways for either character: a plain one is no backslash, and no letter of the table is
  -- the `u` of a hexadecimal escape
  rcases escapeChar_cases c with ⟨a, ha, hc⟩ | ⟨hcontrol, hc⟩ | ⟨hc₀, -, hc⟩ <;>
    rcases escapeChar_cases d with ⟨b, hb, hd⟩ | ⟨hcontrol', hd⟩ | ⟨hd₀, -, hd⟩ <;>
    rw [hc, hd] at h <;>
    simp only [List.cons_append, List.nil_append, List.cons.injEq] at h
  · obtain ⟨-, hab, hr⟩ := h
    exact ⟨escapes_letter_injective (c, a) ha (d, b) hb hab, hr⟩
  · exact absurd h.2.1 (escapes_letter_ne_u (c, a) ha)
  · exact absurd h.1.symm (ne_backslash_of_lookup hd₀)
  · exact absurd h.2.1.symm (escapes_letter_ne_u (d, b) hb)
  · obtain ⟨-, -, -, -, hhigh, hlow, hr⟩ := h
    have h₁ := digitChar_injective_below_16 _ (by omega) _ (by omega) hhigh
    have h₂ := digitChar_injective_below_16 _ (by omega) _ (by omega) hlow
    exact ⟨Char.toNat_inj.mp (by omega), hr⟩
  · exact absurd h.1.symm (ne_backslash_of_lookup hd₀)
  · exact absurd h.1 (ne_backslash_of_lookup hc₀)
  · exact absurd h.1 (ne_backslash_of_lookup hc₀)
  · exact h

theorem escapeChar_eq_cons (c : Char) : ∃ a code, escapeChar c = a :: code ∧ a ≠ '"' := by
  rcases escapeChar_cases c with ⟨a, -, hc⟩ | ⟨-, hc⟩ | ⟨hc₀, -, hc⟩
  · exact ⟨'\\', [a], hc, by decide⟩
  · exact ⟨_, _, hc, by decide⟩
  · refine ⟨c, [], hc, ?_⟩
    rintro rfl
    exact absurd hc₀ (by decide)

/-- A string ends at the first quotation mark that is not escaped. -/
theorem readable_quoted : Readable quoted fun _ => True := by
  intro s t rest rest' _ _ h
  simp only [quoted, List.cons_append, List.cons.injEq, true_and] at h
  obtain ⟨hst, hr⟩ :=
    readable_flatMap readable_escapeChar escapeChar_eq_cons trivial trivial h
  exact ⟨String.toList_injective hst, hr⟩

theorem digitChar_ne_newline : ∀ n < 16, Nat.digitChar n ≠ '\n' := by decide

theorem newline_not_mem_escapeChar (c : Char) : '\n' ∉ escapeChar c := by
  rcases escapeChar_cases c with ⟨a, ha, hc⟩ | ⟨hcontrol, hc⟩ | ⟨hc₀, -, hc⟩
  · have hletter : ∀ p ∈ escapes, '\n' ∉ ['\\', p.2] := by decide
    rw [hc]
    exact hletter (c, a) ha
  · have hhigh := digitChar_ne_newline (c.toNat / 16) (by omega)
    have hlow := digitChar_ne_newline (c.toNat % 16) (by omega)
    rw [hc]
    simp [hhigh.symm, hlow.symm]
  · rw [hc, List.mem_singleton]
    rintro rfl
    exact absurd hc₀ (by decide)

theorem newline_not_mem_quoted (s : String) : '\n' ∉ quoted s := by
  simp [quoted, newline_not_mem_escapeChar]

/-! ## §3 Values -/

/-- A property of all values, from one case for each kind of value. -/
theorem json_induction {P : Json N → Prop} (hnull : P .null) (hbool : ∀ b, P (.bool b))
    (hnumber : ∀ n, P (.number n)) (hstring : ∀ s, P (.string s))
    (hlist : ∀ entries, (∀ entry ∈ entries, P entry) → P (.list entries))
    (hobject : ∀ fields : Fields N, (∀ f ∈ fields, P f.2) → P (.object fields)) (j : Json N) :
    P j := by
  refine @Json.rec N P (fun entries => ∀ entry ∈ entries, P entry)
    (fun fields => ∀ f ∈ fields, P f.2) (fun f => P f.2) hnull hbool hnumber hstring
    hlist hobject ?_ ?_ ?_ ?_ ?_ j
  · simp
  · intro entry entries hentry hentries
    exact List.forall_mem_cons.mpr ⟨hentry, hentries⟩
  · simp
  · intro f fields hf hfields
    exact List.forall_mem_cons.mpr ⟨hf, hfields⟩
  · intro key value hvalue
    exact hvalue

/-- What the first character of a text tells. -/
inductive Lead where
  | null
  | bool
  | number
  | string
  | list
  | object
  | none
  deriving DecidableEq

/-- The kind of a value that starts with the character. -/
def leadOf (c : Char) : Lead :=
  if isNumberChar c then .number
  else
    match c with
    | 'n' => .null
    | 't' => .bool
    | 'f' => .bool
    | '"' => .string
    | '[' => .list
    | '\x7b' => .object
    | _ => .none

def lead : Json N → Lead
  | .null => .null
  | .bool _ => .bool
  | .number _ => .number
  | .string _ => .string
  | .list _ => .list
  | .object _ => .object

theorem lead_ne_none (j : Json N) : lead j ≠ .none := by
  cases j <;> simp [lead]

theorem leadOf_number {c : Char} (h : isNumberChar c = true) : leadOf c = .number := by
  simp [leadOf, h]

/-- The first character tells the kind of a value. -/
theorem head_dumps (j : Json N) (rest : List Char) :
    (dumps T j ++ rest).head?.map leadOf = some (lead j) := by
  cases j with
  | null => simp [dumps, lead]; decide
  | bool b => cases b <;> simp [dumps, lead] <;> decide
  | number n =>
    obtain ⟨c, text, htext⟩ := List.exists_cons_of_ne_nil (T.text_ne_nil n)
    have hc := T.isNumberChar_text n c (by simp [htext])
    simp [dumps, htext, lead, leadOf_number hc]
  | string s => simp [dumps, quoted, lead]; decide
  | list entries => cases entries <;> simp [dumps, lead] <;> decide
  | object fields =>
    cases fields with
    | nil => simp [dumps, lead]; decide
    | cons f fields => simp [dumps, lead]; decide

/-- What may follow a value: anything but more of a number. -/
abbrev AfterValue : List Char → Prop := StopsAt fun c => isNumberChar c = true

theorem afterValue_dumpsEntries (entries : List (Json N)) (rest : List Char) :
    AfterValue (dumpsEntries T entries ++ rest) := by
  cases entries <;> simp [dumpsEntries, AfterValue] <;> decide

theorem afterValue_dumpsFields (fields : Fields N) (rest : List Char) :
    AfterValue (dumpsFields T fields ++ rest) := by
  cases fields with
  | nil => simp [dumpsFields, AfterValue]; decide
  | cons f fields => simp [dumpsFields, AfterValue]; decide

/-- A value is read back from its text and what follows it. -/
def ReadBack (j : Json N) : Prop :=
  ∀ ⦃j' : Json N⦄ ⦃rest rest' : List Char⦄, AfterValue rest → AfterValue rest' →
    dumps T j ++ rest = dumps T j' ++ rest' → j = j' ∧ rest = rest'

variable {T}

/-- The bracket at the end of a list does not start a value. -/
theorem bracket_ne_dumps {bracket : Char} (hbracket : leadOf bracket = .none) (j : Json N)
    (after rest : List Char) : bracket :: after ≠ dumps T j ++ rest := by
  intro h
  have hlead := head_dumps T j rest
  rw [← h, List.head?_cons, Option.map_some, Option.some.injEq, hbracket] at hlead
  exact lead_ne_none j hlead.symm

theorem readBack_entries {entries : List (Json N)}
    (hread : ∀ entry ∈ entries, ReadBack T entry) ⦃entries' : List (Json N)⦄
    ⦃rest rest' : List Char⦄
    (h : dumpsEntries T entries ++ rest = dumpsEntries T entries' ++ rest') :
    entries = entries' ∧ rest = rest' := by
  induction entries generalizing entries' with
  | nil => cases entries' <;> simp_all [dumpsEntries]
  | cons entry entries ih =>
    cases entries' with
    | nil => simp [dumpsEntries] at h
    | cons entry' entries' =>
      simp only [dumpsEntries, List.cons_append, List.append_assoc, List.cons.injEq,
        true_and] at h
      -- the separator or the bracket after an entry ends it
      obtain ⟨hentry, htail⟩ := hread entry (List.mem_cons_self ..)
        (afterValue_dumpsEntries T entries rest) (afterValue_dumpsEntries T entries' rest') h
      obtain ⟨hentries, hr⟩ := ih (fun e he => hread e (List.mem_cons_of_mem _ he)) htail
      exact ⟨by rw [hentry, hentries], hr⟩

/-- The key, the value and the remaining entries of a dictionary. -/
theorem readBack_field {f f' : String × Json N} (hread : ReadBack T f.2)
    {fields fields' : Fields N} {rest rest' : List Char}
    (h : quoted f.1 ++ ':' :: (dumps T f.2 ++ (dumpsFields T fields ++ rest)) =
      quoted f'.1 ++ ':' :: (dumps T f'.2 ++ (dumpsFields T fields' ++ rest'))) :
    f = f' ∧ dumpsFields T fields ++ rest = dumpsFields T fields' ++ rest' := by
  obtain ⟨hkey, hvalue⟩ := readable_quoted trivial trivial h
  obtain ⟨hvalue, htail⟩ := hread (afterValue_dumpsFields T fields rest)
    (afterValue_dumpsFields T fields' rest') (List.cons.inj hvalue).2
  exact ⟨Prod.ext hkey hvalue, htail⟩

theorem readBack_fields {fields : Fields N} (hread : ∀ f ∈ fields, ReadBack T f.2)
    ⦃fields' : Fields N⦄ ⦃rest rest' : List Char⦄
    (h : dumpsFields T fields ++ rest = dumpsFields T fields' ++ rest') :
    fields = fields' ∧ rest = rest' := by
  induction fields generalizing fields' with
  | nil =>
    cases fields' with
    | nil => simpa [dumpsFields] using h
    | cons f' fields' => simp [dumpsFields] at h
  | cons f fields ih =>
    cases fields' with
    | nil => simp [dumpsFields] at h
    | cons f' fields' =>
      simp only [dumpsFields, List.cons_append, List.append_assoc, List.cons.injEq,
        true_and] at h
      obtain ⟨hf, htail⟩ := readBack_field (hread f (List.mem_cons_self ..)) h
      obtain ⟨hfields, hr⟩ := ih (fun g hg => hread g (List.mem_cons_of_mem _ hg)) htail
      exact ⟨by rw [hf, hfields], hr⟩

theorem readBack_list {entries : List (Json N)} (hread : ∀ entry ∈ entries, ReadBack T entry)
    {entries' : List (Json N)} {rest rest' : List Char}
    (h : dumps T (.list entries) ++ rest = dumps T (.list entries') ++ rest') :
    entries = entries' ∧ rest = rest' := by
  cases entries with
  | nil =>
    cases entries' with
    | nil => simpa [dumps] using h
    | cons entry' entries' =>
      simp only [dumps, List.cons_append, List.nil_append, List.append_assoc, List.cons.injEq,
        true_and] at h
      exact absurd h (bracket_ne_dumps (by decide) entry' _ _)
  | cons entry entries =>
    cases entries' with
    | nil =>
      simp only [dumps, List.cons_append, List.nil_append, List.append_assoc, List.cons.injEq,
        true_and] at h
      exact absurd h.symm (bracket_ne_dumps (by decide) entry _ _)
    | cons entry' entries' =>
      -- the first entry is written as the later ones are, after another character
      apply readBack_entries hread
      simpa [dumps, dumpsEntries] using h

theorem readBack_object {fields : Fields N} (hread : ∀ f ∈ fields, ReadBack T f.2)
    {fields' : Fields N} {rest rest' : List Char}
    (h : dumps T (.object fields) ++ rest = dumps T (.object fields') ++ rest') :
    fields = fields' ∧ rest = rest' := by
  cases fields with
  | nil =>
    cases fields' with
    | nil => simpa [dumps] using h
    | cons f' fields' => simp [dumps, quoted] at h
  | cons f fields =>
    cases fields' with
    | nil => simp [dumps, quoted] at h
    | cons f' fields' =>
      apply readBack_fields hread
      simpa [dumps, dumpsFields] using h

theorem lead_eq_of_dumps {j j' : Json N} {rest rest' : List Char}
    (h : dumps T j ++ rest = dumps T j' ++ rest') : lead j = lead j' := by
  have hlead := congrArg (fun text => text.head?.map leadOf) h
  simpa only [head_dumps, Option.some.injEq] using hlead

theorem readBack_all (j : Json N) : ReadBack T j := by
  -- the first characters tell the kinds apart, so both values are of the same kind
  induction j using json_induction with
  | hnull =>
    intro j' rest rest' hrest hrest' h
    have hlead := lead_eq_of_dumps h
    cases j' with
    | null => exact ⟨rfl, by simpa [dumps] using h⟩
    | _ => simp [lead] at hlead
  | hbool b =>
    intro j' rest rest' hrest hrest' h
    have hlead := lead_eq_of_dumps h
    cases j' with
    | bool b' => cases b <;> cases b' <;> simp_all [dumps]
    | _ => simp [lead] at hlead
  | hnumber n =>
    intro j' rest rest' hrest hrest' h
    have hlead := lead_eq_of_dumps h
    cases j' with
    | number n' =>
      obtain ⟨hn, hr⟩ :=
        readable_of_kind T.isNumberChar_text T.text_injective hrest hrest' h
      exact ⟨by rw [hn], hr⟩
    | _ => simp [lead] at hlead
  | hstring s =>
    intro j' rest rest' hrest hrest' h
    have hlead := lead_eq_of_dumps h
    cases j' with
    | string s' =>
      obtain ⟨hs, hr⟩ := readable_quoted trivial trivial h
      exact ⟨by rw [hs], hr⟩
    | _ => simp [lead] at hlead
  | hlist entries ih =>
    -- entry by entry, each up to the comma or bracket behind it
    intro j' rest rest' hrest hrest' h
    have hlead := lead_eq_of_dumps h
    cases j' with
    | list entries' =>
      obtain ⟨hentries, hr⟩ := readBack_list ih h
      exact ⟨by rw [hentries], hr⟩
    | _ => simp [lead] at hlead
  | hobject fields ih =>
    -- key and value, and then the rest
    intro j' rest rest' hrest hrest' h
    have hlead := lead_eq_of_dumps h
    cases j' with
    | object fields' =>
      obtain ⟨hfields, hr⟩ := readBack_object ih h
      exact ⟨by rw [hfields], hr⟩
    | _ => simp [lead] at hlead

/-- The text of a value ends by itself. -/
theorem readable_dumps : Readable (dumps T) AfterValue :=
  fun j _ _ _ hrest hrest' h => readBack_all j hrest hrest' h

theorem newline_not_mem_number (n : N) : '\n' ∉ T.text n := by
  intro h
  have hkind := T.isNumberChar_text n '\n' h
  revert hkind
  decide

theorem newline_not_mem_dumpsEntries {entries : List (Json N)}
    (h : ∀ entry ∈ entries, '\n' ∉ dumps T entry) : '\n' ∉ dumpsEntries T entries := by
  induction entries with
  | nil => simp [dumpsEntries]
  | cons entry entries ih =>
    obtain ⟨hentry, hentries⟩ := List.forall_mem_cons.mp h
    simp [dumpsEntries, hentry, ih hentries]

theorem newline_not_mem_dumpsFields {fields : Fields N}
    (h : ∀ f ∈ fields, '\n' ∉ dumps T f.2) : '\n' ∉ dumpsFields T fields := by
  induction fields with
  | nil => simp [dumpsFields]
  | cons f fields ih =>
    obtain ⟨hf, hfields⟩ := List.forall_mem_cons.mp h
    simp [dumpsFields, newline_not_mem_quoted, hf, ih hfields]

/-- A value is written on one line. -/
theorem newline_not_mem_dumps (j : Json N) : '\n' ∉ dumps T j := by
  induction j using json_induction with
  | hnull => simp [dumps]
  | hbool b => cases b <;> simp [dumps]
  | hnumber n => exact newline_not_mem_number n
  | hstring s => exact newline_not_mem_quoted s
  | hlist entries ih =>
    cases entries with
    | nil => simp [dumps]
    | cons entry entries =>
      obtain ⟨hentry, hentries⟩ := List.forall_mem_cons.mp ih
      simp [dumps, hentry, newline_not_mem_dumpsEntries hentries]
  | hobject fields ih =>
    cases fields with
    | nil => simp [dumps]
    | cons f fields =>
      obtain ⟨hf, hfields⟩ := List.forall_mem_cons.mp ih
      simp [dumps, newline_not_mem_quoted, hf, newline_not_mem_dumpsFields hfields]

/-! ## §4 Dictionaries in the order of their keys -/

/-- A value whose dictionaries hold each key once, in the order that `sort_keys` makes. -/
inductive KeysInOrder : Json N → Prop
  | null : KeysInOrder .null
  | bool (b : Bool) : KeysInOrder (.bool b)
  | number (n : N) : KeysInOrder (.number n)
  | string (s : String) : KeysInOrder (.string s)
  | list {entries : List (Json N)} (h : ∀ entry ∈ entries, KeysInOrder entry) :
    KeysInOrder (.list entries)
  | object {fields : Fields N} (hkeys : fields.Pairwise fun f g => f.1 < g.1)
    (h : ∀ f ∈ fields, KeysInOrder f.2) : KeysInOrder (.object fields)

theorem sortKeysEntries_eq_map (entries : List (Json N)) :
    sortKeysEntries entries = entries.map sortKeys := by
  induction entries with
  | nil => rfl
  | cons entry entries ih => simp only [sortKeysEntries, List.map_cons, ih]

theorem sortKeysFields_eq_map (fields : Fields N) :
    sortKeysFields fields = fields.map fun f => (f.1, sortKeys f.2) := by
  induction fields with
  | nil => rfl
  | cons f fields ih => simp only [sortKeysFields, List.map_cons, ih]

/-- Sorting the keys leaves a value as it is when they are in order. -/
theorem KeysInOrder.sortKeys_eq {j : Json N} (h : KeysInOrder j) : sortKeys j = j := by
  induction h with
  | null => rfl
  | bool b => rfl
  | number n => rfl
  | string s => rfl
  | list h ih =>
    rw [sortKeys, sortKeysEntries_eq_map, List.map_congr_left ih, List.map_id']
  | object hkeys h ih =>
    have hvalues : ∀ f ∈ _, (f.1, sortKeys f.2) = f := fun f hf => by rw [ih f hf]
    rw [sortKeys, sortKeysFields_eq_map, List.map_congr_left hvalues, List.map_id']
    rw [List.Pairwise.insertionSort_eq (hkeys.imp fun hlt => hlt.le)]

end CryptoTrading.Vcs.Hashing
