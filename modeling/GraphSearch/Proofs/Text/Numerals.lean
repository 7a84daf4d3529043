import GraphSearch.Text.Integer
import Mathlib.Data.Nat.Digits.Defs

/-!
# What integers are written like

A numeral is one or more decimal digits, and it denotes the number of which they are the digits in
base ten, the highest first (`IsNumeral`). An integer is written as a numeral after at most one sign
(`IsInteger`), and a number without a minus (`IsNatural`). Leading zeros and signs of zero are
allowed, so an integer has many written forms, but each of them denotes that integer alone.

The readers accept exactly these forms (`signed?_eq_some_iff`, `unsigned?_eq_some_iff`), and the
readers of a given width those among them whose integer fits (`signedOfWidth?_eq_some_iff`,
`unsignedOfWidth?_eq_some_iff`). Forms consist of digits and signs, so a text with any other
character in it is none (`IsInteger.notMem`, `IsNatural.notMem`).

What an integer is printed as is one of its forms (`isInteger_toString`, `isNatural_toString`), so
what was printed can be read back.
-/

namespace GraphSearch.Text

/-- The text is one or more digits, the highest first, and `n` is the number that they denote. -/
structure IsNumeral (text : List Char) (n : Nat) : Prop where
  /-- There is a digit. -/
  ne_nil : text ≠ []
  /-- There is nothing but digits. -/
  digits : ∀ c ∈ text, '0' ≤ c ∧ c ≤ '9'
  /-- The number has these digits in base ten. -/
  value : Nat.ofDigits 10 (text.reverse.map fun c ↦ c.toNat - '0'.toNat) = n

/-- The text is a numeral after at most one sign, and `n` is the integer that it denotes. -/
inductive IsInteger : List Char → Int → Prop
  /-- There is no sign. -/
  | bare {text : List Char} {n : Nat} (numeral : IsNumeral text n) : IsInteger text n
  /-- A plus changes nothing. -/
  | plus {text : List Char} {n : Nat} (numeral : IsNumeral text n) : IsInteger ('+' :: text) n
  /-- A minus changes the sign. -/
  | minus {text : List Char} {n : Nat} (numeral : IsNumeral text n) : IsInteger ('-' :: text) (-n)

/-- The text is a numeral after at most one plus, and `n` is the number that it denotes. -/
inductive IsNatural : List Char → Nat → Prop
  /-- There is no sign. -/
  | bare {text : List Char} {n : Nat} (numeral : IsNumeral text n) : IsNatural text n
  /-- A plus changes nothing. -/
  | plus {text : List Char} {n : Nat} (numeral : IsNumeral text n) : IsNatural ('+' :: text) n

variable {text : List Char} {c : Char}

/-! ### Numerals -/

theorem isDigit_iff : c.isDigit = true ↔ '0' ≤ c ∧ c ≤ '9' := by
  simp [Char.isDigit, Char.le_def]

/-- Reading digits from left to right gives the number of which they are the digits. -/
theorem foldl_eq_ofDigits (value : Char → Nat) (text : List Char) :
    text.foldl (fun n c ↦ 10 * n + value c) 0 = Nat.ofDigits 10 (text.reverse.map value) := by
  rw [Nat.ofDigits_eq_foldr, List.foldr_map, List.foldr_reverse]
  congr 1
  funext n c
  exact Nat.add_comm _ _

theorem digits?_eq_some_iff {n : Nat} : digits? text = some n ↔ IsNumeral text n := by
  rw [digits?, foldl_eq_ofDigits fun c ↦ c.toNat - '0'.toNat]
  constructor
  · intro h
    split at h
    · rename_i hdigits
      obtain ⟨hne, hall⟩ := Bool.and_eq_true_iff.1 hdigits
      refine ⟨by simpa using hne, fun c hc ↦ ?_, Option.some.inj h⟩
      exact isDigit_iff.1 (List.all_eq_true.1 hall c hc)
    · cases h
  · rintro ⟨hne, hdigits, rfl⟩
    have hall : text.all Char.isDigit = true :=
      List.all_eq_true.2 fun c hc ↦ isDigit_iff.2 (hdigits c hc)
    rw [if_pos (Bool.and_eq_true_iff.2 ⟨by simpa using hne, hall⟩)]

theorem IsNumeral.notMem {n : Nat} (h : IsNumeral text n) (hc : c < '0' ∨ '9' < c) : c ∉ text := by
  intro hmem
  obtain ⟨hlow, hhigh⟩ := h.digits c hmem
  rcases hc with hc | hc
  · exact absurd hc (Char.not_lt.2 hlow)
  · exact absurd hc (Char.not_lt.2 hhigh)

/-! ### Integers -/

/-- **What is read as an integer is what is written like one.** -/
theorem signed?_eq_some_iff {n : Int} : signed? text = some n ↔ IsInteger text n := by
  constructor
  · intro h
    unfold signed? at h
    split at h
    · obtain ⟨m, hm, rfl⟩ := Option.map_eq_some_iff.1 h
      obtain ⟨k, hk, ⟨⟩⟩ := Option.bind_eq_some_iff.1 hm
      exact .minus (digits?_eq_some_iff.1 hk)
    · obtain ⟨m, hm, rfl⟩ := Option.map_eq_some_iff.1 h
      exact .plus (digits?_eq_some_iff.1 hm)
    · obtain ⟨m, hm, rfl⟩ := Option.map_eq_some_iff.1 h
      exact .bare (digits?_eq_some_iff.1 hm)
  · intro h
    cases h with
    | bare numeral =>
      -- A numeral does not begin with a sign, so it is read as it stands.
      have hminus : '-' ∉ text := numeral.notMem (Or.inl (by decide))
      have hplus : '+' ∉ text := numeral.notMem (Or.inl (by decide))
      have hread := digits?_eq_some_iff.2 numeral
      unfold signed?
      split
      · exact absurd List.mem_cons_self hminus
      · exact absurd List.mem_cons_self hplus
      · rw [hread]
        rfl
    | plus numeral => exact Option.map_eq_some_iff.2 ⟨_, digits?_eq_some_iff.2 numeral, rfl⟩
    | minus numeral =>
      have hread := digits?_eq_some_iff.2 numeral
      exact Option.map_eq_some_iff.2 ⟨_, Option.bind_eq_some_iff.2 ⟨_, hread, rfl⟩, rfl⟩

theorem unsigned?_eq_some_iff {n : Nat} : unsigned? text = some n ↔ IsNatural text n := by
  constructor
  · intro h
    unfold unsigned? at h
    split at h
    · exact .plus (digits?_eq_some_iff.1 h)
    · exact .bare (digits?_eq_some_iff.1 h)
  · intro h
    cases h with
    | bare numeral =>
      have hplus : '+' ∉ text := numeral.notMem (Or.inl (by decide))
      unfold unsigned?
      split
      · exact absurd List.mem_cons_self hplus
      · exact digits?_eq_some_iff.2 numeral
    | plus numeral => exact digits?_eq_some_iff.2 numeral

instance (text : List Char) (n : Int) : Decidable (IsInteger text n) :=
  decidable_of_iff _ signed?_eq_some_iff

instance (text : List Char) (n : Nat) : Decidable (IsNatural text n) :=
  decidable_of_iff _ unsigned?_eq_some_iff

/-- A text denotes one integer at most. -/
theorem IsInteger.unique {m n : Int} (hm : IsInteger text m) (hn : IsInteger text n) : m = n :=
  Option.some.inj ((signed?_eq_some_iff.2 hm).symm.trans (signed?_eq_some_iff.2 hn))

theorem IsNatural.unique {m n : Nat} (hm : IsNatural text m) (hn : IsNatural text n) : m = n :=
  Option.some.inj ((unsigned?_eq_some_iff.2 hm).symm.trans (unsigned?_eq_some_iff.2 hn))

/-- What is written like an integer has no characters but digits and signs. -/
theorem IsInteger.notMem {n : Int} (h : IsInteger text n) (hc : c < '0' ∨ '9' < c)
    (hplus : c ≠ '+') (hminus : c ≠ '-') : c ∉ text := by
  cases h with
  | bare numeral => exact numeral.notMem hc
  | plus numeral => exact List.not_mem_cons_of_ne_of_not_mem hplus (numeral.notMem hc)
  | minus numeral => exact List.not_mem_cons_of_ne_of_not_mem hminus (numeral.notMem hc)

theorem IsNatural.notMem {n : Nat} (h : IsNatural text n) (hc : c < '0' ∨ '9' < c)
    (hplus : c ≠ '+') : c ∉ text := by
  cases h with
  | bare numeral => exact numeral.notMem hc
  | plus numeral => exact List.not_mem_cons_of_ne_of_not_mem hplus (numeral.notMem hc)

/-! ### Printed integers -/

/-- **A number is printed as a numeral.** -/
theorem isNumeral_toString (n : Nat) : IsNumeral (toString n).toList n := by
  have hall : (Nat.toDigits 10 n).all Char.isDigit = true := List.all_eq_true.2 fun c hc ↦
    Nat.isDigit_of_mem_toDigits (by decide) (by decide) hc
  rw [Nat.toString_eq_ofList_toDigits, String.toList_ofList, ← digits?_eq_some_iff, digits?,
    if_pos (Bool.and_eq_true_iff.2 ⟨by simp [Nat.toDigits_ne_nil], hall⟩),
    ← Nat.ofDigitChars_eq_foldl, Nat.ofDigitChars_ten_toDigits]

theorem isNatural_toString (n : Nat) : IsNatural (toString n).toList n :=
  .bare (isNumeral_toString n)

/-- **An integer is printed as an integer**, with a minus if it is negative. -/
theorem isInteger_toString (n : Int) : IsInteger (toString n).toList n := by
  cases n with
  | ofNat m => exact .bare (isNumeral_toString m)
  | negSucc m =>
    show IsInteger ("-" ++ toString (m + 1)).toList (-((m + 1 : Nat) : Int))
    rw [String.toList_append]
    exact .minus (isNumeral_toString (m + 1))

/-! ### Widths -/

/-- **An integer is read at a width if it fits.** -/
theorem signedOfWidth?_eq_some_iff {bits : Nat} {n : Int} :
    signedOfWidth? bits text = some n ↔
      IsInteger text n ∧ -2 ^ (bits - 1) ≤ n ∧ n < 2 ^ (bits - 1) := by
  rw [signedOfWidth?, Option.filter_eq_some_iff, signed?_eq_some_iff]
  refine and_congr_right fun _ ↦ ?_
  rw [fitsSigned, Bool.and_eq_true, decide_eq_true_eq, decide_eq_true_eq, and_comm]
  rfl

/-- **A number is read at a width if it fits.** -/
theorem unsignedOfWidth?_eq_some_iff {bits : Nat} {n : Nat} :
    unsignedOfWidth? bits text = some n ↔ IsNatural text n ∧ n < 2 ^ bits := by
  rw [unsignedOfWidth?, Option.filter_eq_some_iff, unsigned?_eq_some_iff, decide_eq_true_eq]
  rfl

end GraphSearch.Text
