import GraphSearch.Colouring.Instance
import GraphSearch.Proofs.Colouring.AscendingGraph
import GraphSearch.Proofs.Text.Lines
import GraphSearch.Proofs.Text.Numerals

/-!
# The grammar of colouring instances

A statement gives the number of colours, declares a vertex, or declares an edge between two
different vertices (`Instance.Means`). A statement with an equals sign can only be of the first
kind, one without a comma only of the second, and one with a single comma only of the third, so no
statement means two things (`Means.unique`). What is wrong with any other statement is told by
`Instance.Blames`, which looks for the key before the repetition, for the repetition before the
number, and for the first label before the second.

The reader follows this grammar (`follows_readEntry`). So a text whose lines can all be read is an
instance exactly if each of its lines is silent or means something and a single one of them gives
the number of colours. The graph then has the labels and edges that lines declare, and as
`Graph.Represents` leaves no choice it is fixed by them (`parse_follows_grammar`). Every other text
is refused for the first line that is to blame, or for giving no number of colours if none is.
-/

namespace GraphSearch.Colouring

open Text (IsInteger IsNatural IsSilent Recites Source trim)

namespace Instance

/-! ### The grammar -/

/-- What a statement may mean. -/
inductive Meaning where
  /-- There are `k` colours. -/
  | palette (k : Nat)
  /-- A vertex or an edge is declared. -/
  | declares (c : Declaration)
deriving DecidableEq, Repr

/-- The text is a label: an integer of 32 bits. -/
def IsLabel (text : List Char) (u : Label) : Prop :=
  IsInteger text u ∧ -2 ^ 31 ≤ u ∧ u < 2 ^ 31

instance (text : List Char) (u : Label) : Decidable (IsLabel text u) :=
  inferInstanceAs (Decidable (_ ∧ _))

/-- The text is a number of colours: a number of 32 bits without a minus. -/
def IsPaletteSize (text : List Char) (k : Nat) : Prop := IsNatural text k ∧ k < 2 ^ 32

instance (text : List Char) (k : Nat) : Decidable (IsPaletteSize text k) :=
  inferInstanceAs (Decidable (_ ∧ _))

/-- What a statement means. Blanks around keys, numbers and labels count for nothing. -/
inductive Means : List Char → Meaning → Prop
  /-- The key and the number of colours, with an equals sign between them. -/
  | palette {key value : List Char} {k : Nat} (key_eq : trim key = paletteKey)
      (size : IsPaletteSize (trim value) k) : Means (key ++ '=' :: value) (.palette k)
  /-- A single label. -/
  | vertex {text : List Char} {u : Label} (label : IsLabel (trim text) u) :
      Means text (.declares (.vertex u))
  /-- Two different labels with a comma between them. -/
  | edge {s t : List Char} {u v : Label} (first : IsLabel (trim s) u) (second : IsLabel (trim t) v)
      (ne : u ≠ v) : Means (s ++ ',' :: t) (.declares (.edge u v))

/-- Why the statement of line `n` is refused, where `given` says whether the number of colours was
given before. -/
inductive Blames (given : Prop) (n : Nat) : List Char → InstanceError → Prop
  /-- Another key stands before the equals sign. -/
  | otherKey {key value : List Char} (first : '=' ∉ key) (key_ne : trim key ≠ paletteKey) :
      Blames given n (key ++ '=' :: value) (.malformedLine n (String.ofList (key ++ '=' :: value)))
  /-- The number of colours was given before, and it does not matter what is given now. -/
  | repeated {key value : List Char} (key_eq : trim key = paletteKey) (again : given) :
      Blames given n (key ++ '=' :: value) (.duplicatePalette n)
  /-- What is given is not a number of colours. -/
  | badSize {key value : List Char} (key_eq : trim key = paletteKey) (fresh : ¬given)
      (bad : ∀ k, ¬IsPaletteSize (trim value) k) :
      Blames given n (key ++ '=' :: value) (.invalidPalette n (String.ofList (trim value)))
  /-- What stands alone is not a label. -/
  | badVertex {text : List Char} (plain : '=' ∉ text) (single : ',' ∉ text)
      (bad : ∀ u, ¬IsLabel (trim text) u) :
      Blames given n text (.invalidLabel n (String.ofList (trim text)))
  /-- What stands before the comma is not a label. -/
  | badFirst {s t : List Char} (plain : '=' ∉ s ++ ',' :: t) (left : ',' ∉ s) (right : ',' ∉ t)
      (bad : ∀ u, ¬IsLabel (trim s) u) :
      Blames given n (s ++ ',' :: t) (.invalidLabel n (String.ofList (trim s)))
  /-- What stands before the comma is a label, and what stands after it is not. -/
  | badSecond {s t : List Char} {u : Label} (plain : '=' ∉ s ++ ',' :: t) (right : ',' ∉ t)
      (first : IsLabel (trim s) u) (bad : ∀ v, ¬IsLabel (trim t) v) :
      Blames given n (s ++ ',' :: t) (.invalidLabel n (String.ofList (trim t)))
  /-- The two labels are the same. -/
  | selfLoop {s t : List Char} {u : Label} (first : IsLabel (trim s) u)
      (second : IsLabel (trim t) u) : Blames given n (s ++ ',' :: t) (.selfLoop n u)
  /-- There are two commas or more. -/
  | tooMany {text : List Char} (plain : '=' ∉ text) (commas : 2 ≤ text.count ',') :
      Blames given n text (.malformedLine n (String.ofList text))

variable {text s t key value : List Char} {c : Char} {n k : Nat} {u v : Label} {m : Meaning}
  {d d' : Draft} {e : InstanceError} {given : Prop}

/-- The number of colours that a statement gives. -/
def Meaning.size? : Meaning → Option Nat
  | palette k => some k
  | declares _ => none

/-- The declaration that a statement is. -/
def Meaning.declaration? : Meaning → Option Declaration
  | palette _ => none
  | declares c => some c

/-- The numbers of colours that are given, in their order. -/
def sizes (said : List Meaning) : List Nat := said.filterMap Meaning.size?

/-- The declarations that are made, in their order. -/
def declarations (said : List Meaning) : List Declaration := said.filterMap Meaning.declaration?

/-- A line of the source means `m`. -/
def Tells (source : Source) (m : Meaning) : Prop :=
  ∃ line, .ok line ∈ source.lines ∧ ¬IsSilent line ∧ Means (trim line) m

/-- A line of the source declares the label, by itself or as an end of an edge. -/
def DeclaresLabel (source : Source) (u : Label) : Prop :=
  ∃ c, Tells source (.declares c) ∧ c.Names u

/-- A line of the source declares an edge between the labels, in either orientation. -/
def DeclaresEdge (source : Source) (u v : Label) : Prop :=
  ∃ c, Tells source (.declares c) ∧ c.Joins u v

/-- Why the lines are not an instance. -/
inductive Refuses (lines : List (List Char)) : InstanceError → Prop
  /-- A line is to blame, and none before it is: all of them are silent or mean something, and at
  most one of them gives the number of colours. -/
  | line {before after : List (List Char)} {line : List Char} {said : List Meaning}
      {e : InstanceError} (split : lines = before ++ line :: after)
      (recited : Recites Means before said) (once : (sizes said).length ≤ 1)
      (speaks : ¬IsSilent line)
      (blamed : Blames (sizes said ≠ []) (before.length + 1) (trim line) e) : Refuses lines e
  /-- No line is to blame, and none gives the number of colours. -/
  | missing {said : List Meaning} (recited : Recites Means lines said) (never : sizes said = []) :
      Refuses lines .missingPalette

/-! ### Labels and numbers -/

theorem signedOfWidth?_eq_some_iff_isLabel :
    Text.signedOfWidth? 32 text = some u ↔ IsLabel text u := Text.signedOfWidth?_eq_some_iff

theorem unsignedOfWidth?_eq_some_iff_isPaletteSize :
    Text.unsignedOfWidth? 32 text = some k ↔ IsPaletteSize text k :=
  Text.unsignedOfWidth?_eq_some_iff

theorem readLabel_eq_ok (h : IsLabel text u) : readLabel n text = .ok u := by
  rw [readLabel, signedOfWidth?_eq_some_iff_isLabel.2 h]

theorem readLabel_eq_error (h : ∀ u, ¬IsLabel text u) :
    readLabel n text = .error (.invalidLabel n (String.ofList text)) := by
  have hnone : Text.signedOfWidth? 32 text = none :=
    Option.eq_none_iff_forall_ne_some.2 fun u hu ↦ h u (signedOfWidth?_eq_some_iff_isLabel.1 hu)
  rw [readLabel, hnone]

/-- A label consists of digits and a sign, so nothing else stands in a text that is one after
trimming. -/
theorem IsLabel.notMem (h : IsLabel (trim text) u) (hc : c < '0' ∨ '9' < c) (hplus : c ≠ '+')
    (hminus : c ≠ '-') (hblank : Text.isBlank c = false) : c ∉ text :=
  fun hmem ↦ h.1.notMem hc hplus hminus (Text.mem_trim hmem hblank)

theorem IsLabel.comma_notMem (h : IsLabel (trim text) u) : ',' ∉ text :=
  h.notMem (Or.inl (by decide)) (by decide) (by decide) (by decide)

theorem IsLabel.equals_notMem (h : IsLabel (trim text) u) : '=' ∉ text :=
  h.notMem (Or.inr (by decide)) (by decide) (by decide) (by decide)

theorem equals_notMem_of_trim_eq (h : trim key = paletteKey) : '=' ∉ key := fun hmem ↦ by
  have hkey : '=' ∈ paletteKey := h ▸ Text.mem_trim hmem (by decide)
  exact absurd hkey (by decide)

theorem equals_notMem_append (hs : '=' ∉ s) (ht : '=' ∉ t) : '=' ∉ s ++ ',' :: t := by
  simp [hs, ht]

/-! ### Reading a statement of each form -/

theorem readStatement_otherKey (h : '=' ∉ key) (hkey : trim key ≠ paletteKey) :
    readStatement d ⟨n, key ++ '=' :: value⟩ =
      .error (.malformedLine n (String.ofList (key ++ '=' :: value))) := by
  rw [readStatement, if_pos (by simp), readPalette]
  dsimp only
  rw [(Text.takeWhile_dropWhile_ne h).1, if_pos hkey]

theorem readStatement_repeated (hkey : trim key = paletteKey) (hgiven : d.palette.isSome = true) :
    readStatement d ⟨n, key ++ '=' :: value⟩ = .error (.duplicatePalette n) := by
  rw [readStatement, if_pos (by simp), readPalette]
  dsimp only
  rw [(Text.takeWhile_dropWhile_ne (equals_notMem_of_trim_eq hkey)).1, if_neg (not_not.2 hkey),
    if_pos hgiven]

/-- A number of colours is read where none was given before. -/
theorem readStatement_size (hkey : trim key = paletteKey) (hfresh : ¬d.palette.isSome = true) :
    readStatement d ⟨n, key ++ '=' :: value⟩ =
      ((Text.unsignedOfWidth? 32 (trim value)).elim
        (.error (.invalidPalette n (String.ofList (trim value))))
        fun k ↦ .ok { d with palette := some k }) := by
  -- The key ends at the first equals sign.
  obtain ⟨htake, hdrop⟩ := Text.takeWhile_dropWhile_ne (equals_notMem_of_trim_eq hkey)
  rw [readStatement, if_pos (by simp), readPalette]
  dsimp only
  rw [htake, hdrop, if_neg (not_not.2 hkey), if_neg hfresh, List.drop_succ_cons, List.drop_zero]
  cases Text.unsignedOfWidth? 32 (trim value) with
  | none => rfl
  | some k => rfl

theorem readStatement_single (hplain : '=' ∉ text) (hsingle : ',' ∉ text) :
    readStatement d ⟨n, text⟩ = (do
      let u ← readLabel n (trim text)
      return { d with declared := d.declared.addVertex u }) := by
  rw [readStatement, if_neg (by simpa using hplain)]
  simp only [Text.fields_of_notMem hsingle]

theorem readStatement_pair (hplain : '=' ∉ s ++ ',' :: t) (hs : ',' ∉ s) (ht : ',' ∉ t) :
    readStatement d ⟨n, s ++ ',' :: t⟩ = (do
      let u ← readLabel n (trim s)
      let v ← readLabel n (trim t)
      if u = v then throw (.selfLoop n u)
      else return { d with declared := d.declared.record (.edge u v) }) := by
  have hfields : Text.fields (s ++ ',' :: t) = [trim s, trim t] := by
    rw [Text.fields_append_comma, Text.fields_of_notMem hs, Text.fields_of_notMem ht]
    rfl
  rw [readStatement, if_neg (by simpa using hplain)]
  simp only [hfields]
  refine bind_congr_of_ok fun u _ ↦ bind_congr_of_ok fun v _ ↦ ?_
  by_cases huv : u = v
  · rw [if_pos huv, huv, Declarations.addEdge_self]
  · rw [if_neg huv, Declarations.record, Declarations.addEdge_of_ne _ huv]

theorem readStatement_many (hplain : '=' ∉ text) (hmany : 2 ≤ text.count ',') :
    readStatement d ⟨n, text⟩ = .error (.malformedLine n (String.ofList text)) := by
  have hlength : 2 < (Text.fields text).length := by
    rw [Text.length_fields]
    omega
  rw [readStatement, if_neg (by simpa using hplain)]
  dsimp only
  split
  · rename_i hfields
    simp [hfields] at hlength
  · rename_i hfields
    simp [hfields] at hlength
  · rfl

/-! ### The reader follows the grammar -/

/-- Takes up what a statement means. The number of colours is taken up once. -/
def Draft.take (d : Draft) : Meaning → Option Draft
  | .palette k => if d.palette.isSome then none else some { d with palette := some k }
  | .declares c => some { d with declared := d.declared.record c }

theorem readStatement_of_means (hm : Means text m) (htake : d.take m = some d') :
    readStatement d ⟨n, text⟩ = .ok d' := by
  cases hm with
  | palette key_eq size =>
    rw [Draft.take] at htake
    split at htake
    · cases htake
    · rename_i hfresh
      rw [readStatement_size key_eq hfresh, unsignedOfWidth?_eq_some_iff_isPaletteSize.2 size]
      exact congrArg Except.ok (Option.some.inj htake)
  | vertex label =>
    obtain rfl := Option.some.inj htake
    rw [readStatement_single label.equals_notMem label.comma_notMem, readLabel_eq_ok label]
    rfl
  | edge first second ne =>
    obtain rfl := Option.some.inj htake
    rw [readStatement_pair (equals_notMem_append first.equals_notMem second.equals_notMem)
      first.comma_notMem second.comma_notMem, readLabel_eq_ok first, ok_bind,
      readLabel_eq_ok second, ok_bind, if_neg ne]
    rfl

theorem readStatement_of_blames (h : Blames (d.palette.isSome = true) n text e) :
    readStatement d ⟨n, text⟩ = .error e := by
  cases h with
  | otherKey first key_ne => exact readStatement_otherKey first key_ne
  | repeated key_eq again => exact readStatement_repeated key_eq again
  | badSize key_eq fresh bad =>
    have hnone := Option.eq_none_iff_forall_ne_some.2 fun k hk ↦
      bad k (unsignedOfWidth?_eq_some_iff_isPaletteSize.1 hk)
    rw [readStatement_size key_eq fresh, hnone]
    rfl
  | badVertex plain single bad =>
    rw [readStatement_single plain single, readLabel_eq_error bad, error_bind]
  | badFirst plain left right bad =>
    rw [readStatement_pair plain left right, readLabel_eq_error bad, error_bind]
  | badSecond plain right first bad =>
    rw [readStatement_pair plain first.comma_notMem right, readLabel_eq_ok first, ok_bind,
      readLabel_eq_error bad, error_bind]
  | selfLoop first second =>
    rw [readStatement_pair (equals_notMem_append first.equals_notMem second.equals_notMem)
      first.comma_notMem second.comma_notMem, readLabel_eq_ok first, ok_bind,
      readLabel_eq_ok second, ok_bind, if_pos rfl]
    rfl
  | tooMany plain commas => exact readStatement_many plain commas

/-- A statement with an equals sign gives the number of colours or is to blame. -/
theorem means_or_blames_of_equals (h : '=' ∉ key) :
    (∃ k, Means (key ++ '=' :: value) (.palette k) ∧ ¬given) ∨
      ∃ e, Blames given n (key ++ '=' :: value) e := by
  by_cases hkey : trim key = paletteKey
  · by_cases hgiven : given
    · exact Or.inr ⟨_, .repeated hkey hgiven⟩
    · by_cases hsize : ∃ k, IsPaletteSize (trim value) k
      · obtain ⟨k, hk⟩ := hsize
        exact Or.inl ⟨k, .palette hkey hk, hgiven⟩
      · exact Or.inr ⟨_, .badSize hkey hgiven (not_exists.1 hsize)⟩
  · exact Or.inr ⟨_, .otherKey h hkey⟩

/-- Any other statement declares something or is to blame. -/
theorem means_or_blames_of_plain (h : '=' ∉ text) :
    (∃ c, Means text (.declares c)) ∨ ∃ e, Blames given n text e := by
  -- The cases follow the reader: the commas first, then one label after another.
  rcases Nat.lt_or_ge (text.count ',') 2 with hfew | hmany
  · by_cases hcomma : ',' ∈ text
    · obtain ⟨s, t, rfl, hs⟩ := List.eq_append_cons_of_mem hcomma
      have ht : ',' ∉ t := by
        rw [List.count_append, List.count_cons_self] at hfew
        exact List.count_eq_zero.1 (by omega)
      by_cases hfirst : ∃ u, IsLabel (trim s) u
      · obtain ⟨u, hu⟩ := hfirst
        by_cases hsecond : ∃ v, IsLabel (trim t) v
        · obtain ⟨v, hv⟩ := hsecond
          by_cases huv : u = v
          · subst huv
            exact Or.inr ⟨_, .selfLoop hu hv⟩
          · exact Or.inl ⟨_, .edge hu hv huv⟩
        · exact Or.inr ⟨_, .badSecond h ht hu (not_exists.1 hsecond)⟩
      · exact Or.inr ⟨_, .badFirst h hs ht (not_exists.1 hfirst)⟩
    · by_cases hlabel : ∃ u, IsLabel (trim text) u
      · obtain ⟨u, hu⟩ := hlabel
        exact Or.inl ⟨_, .vertex hu⟩
      · exact Or.inr ⟨_, .badVertex h hcomma (not_exists.1 hlabel)⟩
  · exact Or.inr ⟨_, .tooMany h hmany⟩

/-- **The reader follows the grammar.** -/
theorem follows_readEntry :
    Text.Follows readEntry Means Draft.take fun d ↦ Blames (d.palette.isSome = true) where
  accepts := readStatement_of_means
  refuses := readStatement_of_blames
  decides d n text := by
    by_cases hequals : '=' ∈ text
    · obtain ⟨key, value, rfl, hkey⟩ := List.eq_append_cons_of_mem hequals
      refine (means_or_blames_of_equals hkey).imp_left ?_
      rintro ⟨k, hk, hfresh⟩
      exact ⟨_, _, hk, if_neg hfresh⟩
    · refine (means_or_blames_of_plain hequals).imp_left ?_
      rintro ⟨c, hc⟩
      exact ⟨_, _, hc, rfl⟩
  refuses_unread d e := ⟨_, rfl⟩

/-! ### What a text means -/

/-- **No statement means two things.** -/
theorem Means.unique {m' : Meaning} (h : Means text m) (h' : Means text m') : m = m' := by
  -- An equals sign tells the first form from the others, and a comma the third from the second.
  cases h with
  | @palette key value k key_eq size =>
    generalize htext : key ++ '=' :: value = text at h'
    cases h' with
    | @palette key' value' k' key_eq' size' =>
      have hvalue : '=' ∉ value := fun hmem ↦
        size.1.notMem (Or.inr (by decide)) (by decide) (Text.mem_trim hmem (by decide))
      obtain ⟨-, -, rfl⟩ := (List.append_cons_inj_of_notMem
        (equals_notMem_of_trim_eq key_eq) hvalue).1 htext
      rw [size.1.unique size'.1]
    | vertex label => exact absurd (htext ▸ by simp) label.equals_notMem
    | edge first second ne =>
      exact absurd (htext ▸ by simp)
        (equals_notMem_append first.equals_notMem second.equals_notMem)
  | vertex label =>
    cases h' with
    | palette key_eq size => exact absurd (by simp) label.equals_notMem
    | vertex label' => rw [label.1.unique label'.1]
    | edge first second ne => exact absurd (by simp) label.comma_notMem
  | @edge s t u v first second ne =>
    generalize htext : s ++ ',' :: t = text at h'
    cases h' with
    | palette key_eq size =>
      exact absurd (htext ▸ by simp)
        (equals_notMem_append first.equals_notMem second.equals_notMem)
    | vertex label => exact absurd (htext ▸ by simp) label.comma_notMem
    | edge first' second' ne' =>
      obtain ⟨rfl, -, rfl⟩ := (List.append_cons_inj_of_notMem
        first.comma_notMem second.comma_notMem).1 htext
      rw [first.1.unique first'.1, second.1.unique second'.1]

variable {said : List Meaning}

theorem mem_declarations {c : Declaration} : c ∈ declarations said ↔ .declares c ∈ said := by
  rw [declarations, List.mem_filterMap]
  constructor
  · rintro ⟨_ | c', hm, hc⟩
    · cases hc
    · obtain rfl := Option.some.inj hc
      exact hm
  · exact fun hm ↦ ⟨_, hm, rfl⟩

/-- **What is said is taken up as long as the number of colours is given once.** -/
theorem foldlM_take_eq_some_iff :
    said.foldlM Draft.take d = some d' ↔
      (d.palette.toList ++ sizes said).length ≤ 1 ∧
        d' = ⟨(d.palette.toList ++ sizes said).head?,
          (declarations said).foldl Declarations.record d.declared⟩ := by
  induction said generalizing d with
  | nil =>
    obtain ⟨_ | k, declared⟩ := d <;> simp [sizes, declarations, eq_comm]
  | cons m said ih =>
    rw [List.foldlM_cons]
    cases m with
    | palette k =>
      obtain ⟨_ | k', declared⟩ := d
      · exact ih
      · -- A second number is not taken up, and makes the list too long.
        simp [Draft.take, sizes, Meaning.size?]
    | declares c => exact ih

section Parsing

variable {source : Source} {lines : List (List Char)} {i : Instance}

theorem mem_iff_tells (hlines : source.lines = lines.map .ok) (hsaid : Recites Means lines said) :
    m ∈ said ↔ Tells source m := by
  rw [hsaid.mem_iff Means.unique, Tells]
  simp [hlines]

theorem declaresLabel_iff (hlines : source.lines = lines.map .ok)
    (hsaid : Recites Means lines said) :
    DeclaresLabel source u ↔ ∃ c ∈ declarations said, c.Names u := by
  simp only [DeclaresLabel, mem_declarations, mem_iff_tells hlines hsaid]

theorem declaresEdge_iff (hlines : source.lines = lines.map .ok)
    (hsaid : Recites Means lines said) :
    DeclaresEdge source u v ↔ ∃ c ∈ declarations said, c.Joins u v := by
  simp only [DeclaresEdge, mem_declarations, mem_iff_tells hlines hsaid]

/-- The declarations that are said make a graph which represents what lines declare. -/
theorem represents_of_recites (hlines : source.lines = lines.map .ok)
    (hsaid : Recites Means lines said) :
    (Graph.declared (declarations said)).Represents (DeclaresLabel source)
      (DeclaresEdge source) := by
  have hlabel : (fun u ↦ ∃ c ∈ declarations said, c.Names u) = DeclaresLabel source :=
    funext fun _ ↦ propext (declaresLabel_iff hlines hsaid).symm
  have hedge : (fun u v ↦ ∃ c ∈ declarations said, c.Joins u v) = DeclaresEdge source :=
    funext₂ fun _ _ ↦ propext (declaresEdge_iff hlines hsaid).symm
  exact hlabel ▸ hedge ▸ Graph.represents_declared (declarations said)

theorem statements_eq (hlines : source.lines = lines.map .ok) :
    source.statements = Text.statementsFrom 0 (lines.map .ok) := by
  rw [Text.Source.statements_eq, hlines]

/-- The instances that are read are those of the drafts with a number of colours. -/
theorem parse_eq_ok_iff_exists_draft :
    parse source = .ok i ↔ ∃ d : Draft, source.statements.foldlM readEntry {} = .ok d ∧
      d.palette = some i.palette ∧ i.graph = d.declared.graph := by
  rw [parse, bind_eq_ok_iff]
  refine exists_congr fun d ↦ and_congr_right fun _ ↦ ?_
  obtain ⟨_ | k, declared⟩ := d
  · simp [throw, throwThe, MonadExceptOf.throw]
  · obtain ⟨graph, palette⟩ := i
    simp [eq_comm, and_comm]

theorem parse_eq_error_iff_exists_draft :
    parse source = .error e ↔ source.statements.foldlM readEntry {} = .error e ∨
      ∃ d : Draft, source.statements.foldlM readEntry {} = .ok d ∧ d.palette = none ∧
        e = .missingPalette := by
  rw [parse]
  rcases source.statements.foldlM readEntry {} with e' | ⟨_ | k, declared⟩
  · simp
  · simp [throw, throwThe, MonadExceptOf.throw, eq_comm]
  · simp

/-- **A text is read as an instance exactly if it describes that instance.** -/
theorem parse_eq_ok_iff (hlines : source.lines = lines.map .ok) :
    parse source = .ok i ↔
      (∃ said, Recites Means lines said ∧ sizes said = [i.palette]) ∧
        i.graph.Represents (DeclaresLabel source) (DeclaresEdge source) := by
  simp only [parse_eq_ok_iff_exists_draft, statements_eq hlines, follows_readEntry.run_eq_ok_iff,
    foldlM_take_eq_some_iff]
  constructor
  · rintro ⟨_, ⟨said, hsaid, honce, rfl⟩, hpalette, hgraph⟩
    refine ⟨⟨said, hsaid, ?_⟩, hgraph ▸ represents_of_recites hlines hsaid⟩
    obtain ⟨rest, hrest⟩ : ∃ rest, sizes said = i.palette :: rest :=
      List.head?_eq_some_iff.1 hpalette
    have honce : (sizes said).length ≤ 1 := honce
    rw [hrest, List.length_cons, Nat.succ_le_succ_iff, Nat.le_zero] at honce
    rw [hrest, List.eq_nil_of_length_eq_zero honce]
  · rintro ⟨⟨said, hsaid, hsizes⟩, hgraph⟩
    refine ⟨_, ⟨said, hsaid, ?_, rfl⟩, ?_, hgraph.unique (represents_of_recites hlines hsaid)⟩
    · simp [hsizes]
    · simp [hsizes]

/-- **A text is refused for the first line to blame**, or for a missing number of colours. -/
theorem parse_eq_error_iff (hlines : source.lines = lines.map .ok) :
    parse source = .error e ↔ Refuses lines e := by
  simp only [parse_eq_error_iff_exists_draft, statements_eq hlines,
    follows_readEntry.run_eq_ok_iff, follows_readEntry.run_eq_error_iff, foldlM_take_eq_some_iff]
  constructor
  · rintro (⟨before, line, after, said, _, hsplit, hsaid, ⟨honce, rfl⟩, hspeaks, hblamed⟩ |
      ⟨_, ⟨said, hsaid, -, rfl⟩, hnone, rfl⟩)
    · refine .line hsplit hsaid honce hspeaks ?_
      simpa using hblamed
    · exact .missing hsaid (by simpa using hnone)
  · rintro (⟨hsplit, hsaid, honce, hspeaks, hblamed⟩ | ⟨hsaid, hnever⟩)
    · refine Or.inl ⟨_, _, _, _, _, hsplit, hsaid, ⟨honce, rfl⟩, hspeaks, ?_⟩
      simpa using hblamed
    · exact Or.inr ⟨_, ⟨_, hsaid, by simp [hnever], rfl⟩, by simp [hnever], rfl⟩

/-- **The instances are the texts of the grammar.** A text whose lines can all be read is an
instance exactly if each line that is not silent means something and the number of colours is given
once. The instance then has this number and a graph of the labels and edges which lines declare, and
nothing else. Every other text is refused, for the first line to blame if there is one. -/
theorem parse_follows_grammar (source : Source) (lines : List (List Char))
    (hlines : source.lines = lines.map .ok) :
    ((∃ i, parse source = .ok i) ↔ ∃ said k, Recites Means lines said ∧ sizes said = [k]) ∧
      (∀ i, parse source = .ok i ↔
        (∃ said, Recites Means lines said ∧ sizes said = [i.palette]) ∧
          i.graph.Represents (DeclaresLabel source) (DeclaresEdge source)) ∧
      ∀ e, parse source = .error e ↔ Refuses lines e := by
  refine ⟨?_, fun i ↦ parse_eq_ok_iff hlines, fun e ↦ parse_eq_error_iff hlines⟩
  constructor
  · rintro ⟨i, hi⟩
    obtain ⟨⟨said, hsaid, hsizes⟩, -⟩ := (parse_eq_ok_iff hlines).1 hi
    exact ⟨said, _, hsaid, hsizes⟩
  · rintro ⟨said, k, hsaid, hsizes⟩
    refine ⟨⟨Graph.declared (declarations said), k⟩, (parse_eq_ok_iff hlines).2 ?_⟩
    exact ⟨⟨said, hsaid, hsizes⟩, represents_of_recites hlines hsaid⟩

/-- A text with a comment, blanks, a plus, leading zeros and a carriage return means three colours
for the edge between `4` and `7` and the vertex `-2`. In another one the third line is to blame,
though the number of colours is only given after it. -/
theorem parse_follows_grammar_commented :
    (∃ said, Recites Means ["# ring".toList, " colors = +3".toList, [], "4, 007".toList,
        "-2".toList] said ∧ sizes said = [3]) ∧
      (Graph.declared [.edge 4 7, .vertex (-2)]).Represents
        (DeclaresLabel (.ofString "# ring\n colors = +3\r\n\n4, 007\n-2"))
        (DeclaresEdge (.ofString "# ring\n colors = +3\r\n\n4, 007\n-2")) ∧
      Refuses ["5".toList, [], "4,+04".toList, "colors=2".toList] (.selfLoop 3 4) := by
  have haccepted : parse (.ofString "# ring\n colors = +3\r\n\n4, 007\n-2") =
      .ok ⟨Graph.declared [.edge 4 7, .vertex (-2)], 3⟩ := by decide +kernel
  have hrefused : parse (.ofString "5\n\n4,+04\ncolors=2") = .error (.selfLoop 3 4) := by
    decide +kernel
  obtain ⟨hsaid, hgraph⟩ :=
    ((parse_follows_grammar _ ["# ring".toList, " colors = +3".toList, [], "4, 007".toList,
      "-2".toList] (by decide +kernel)).2.1 _).1 haccepted
  exact ⟨hsaid, hgraph, ((parse_follows_grammar _ ["5".toList, [], "4,+04".toList,
    "colors=2".toList] (by decide +kernel)).2.2 _).1 hrefused⟩

end Parsing

end Instance

end GraphSearch.Colouring
