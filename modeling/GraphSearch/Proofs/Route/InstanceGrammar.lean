import GraphSearch.Proofs.Route.DeclaredNetwork
import GraphSearch.Proofs.Text.Lines
import GraphSearch.Proofs.Text.Numerals
import GraphSearch.Route.Instance

/-!
# The grammar of pathfinding instances

The fields of a statement are of four forms: two of them start with a letter that says what the
number after it is, the place of a vertex has two numbers, and an edge two numbers and a weight
(`Instance.Layout`). Each field after such a letter is meant to be a number or a weight
(`Instance.Slot`). A statement whose fields are all what they are meant to be means something
(`Instance.Means`), and otherwise the first of them that is not is to blame (`Instance.FirstFault`),
unless there are too few or too many fields. A weight is told to be negative where it is an integer
of 64 bits below zero; any other field that is not what it is meant to be is no valid integer.

The reader follows this grammar (`follows_readEntry`). Of the starts and goals that are given it
keeps the last ones, and it adds vertices and edges in their order, so that `edgesOf_declared` and
`coordinateOf_declared` say what the network of an instance is like (`parse_obeys_grammar`).
-/

namespace GraphSearch.Route

open Text (IsInteger IsSilent Recites Source fields trim)

namespace Instance

/-! ### The grammar -/

/-- What a statement may mean. -/
inductive Meaning where
  /-- The path begins at `v`. -/
  | start (v : Vertex)
  /-- The path ends at `v`. -/
  | goal (v : Vertex)
  /-- A vertex is placed or an edge is added. -/
  | adds (c : Addition)
deriving DecidableEq, Repr

/-- The text is an integer of 32 bits. -/
def IsNumber (text : List Char) (v : Int32) : Prop := IsInteger text v.toInt

instance (text : List Char) (v : Int32) : Decidable (IsNumber text v) :=
  inferInstanceAs (Decidable (IsInteger _ _))

/-- The text is a weight: an integer, signed or not, that is a number of 32 bits. -/
def IsWeight (text : List Char) (w : UInt32) : Prop := IsInteger text w.toNat

instance (text : List Char) (w : UInt32) : Decidable (IsWeight text w) :=
  inferInstanceAs (Decidable (IsInteger _ _))

/-- What a statement means. -/
inductive Means (text : List Char) : Meaning → Prop
  /-- The path begins at the number after an `S`. -/
  | start {token : List Char} {v : Vertex} (form : fields text = [['S'], token])
      (number : IsNumber token v) : Means text (.start v)
  /-- The path ends at the number after a `D`. -/
  | goal {token : List Char} {v : Vertex} (form : fields text = [['D'], token])
      (number : IsNumber token v) : Means text (.goal v)
  /-- A vertex is placed where its cell is. -/
  | vertex {first second : List Char} {v cell : Int32} (form : fields text = [first, second])
      (number : IsNumber first v) (packed : IsNumber second cell) :
      Means text (.adds (.vertex v (.ofCell cell)))
  /-- An edge joins two vertices at a weight. -/
  | edge {first second third : List Char} {u v : Vertex} {w : UInt32}
      (form : fields text = [first, second, third]) (number : IsNumber first u)
      (number' : IsNumber second v) (weight : IsWeight third w) :
      Means text (.adds (.edge u v w))

/-- What a field may be meant to be. -/
inductive Slot where
  /-- A number of a vertex or a cell. -/
  | number
  /-- A weight. -/
  | weight
deriving DecidableEq, Repr

/-- The field is what it is meant to be. -/
def Slot.Accepts : Slot → List Char → Prop
  | number, token => ∃ v, IsNumber token v
  | weight, token => ∃ w, IsWeight token w

/-- What the fields of a statement are meant to be, but for the letter in front of them. -/
inductive Layout : List (List Char) → List (Slot × List Char) → Prop
  /-- A start is a number. -/
  | start (token : List Char) : Layout [['S'], token] [(.number, token)]
  /-- A goal is a number. -/
  | goal (token : List Char) : Layout [['D'], token] [(.number, token)]
  /-- The place of a vertex is two numbers. -/
  | vertex {first second : List Char} (ne_start : first ≠ ['S']) (ne_goal : first ≠ ['D']) :
      Layout [first, second] [(.number, first), (.number, second)]
  /-- An edge is two numbers and a weight. -/
  | edge (first second third : List Char) :
      Layout [first, second, third] [(.number, first), (.number, second), (.weight, third)]

/-- Why a field of line `n` is not what it is meant to be. -/
inductive Faulty (n : Nat) : Slot → List Char → InstanceError → Prop
  /-- It is not a number. -/
  | number {token : List Char} (bad : ∀ v, ¬IsNumber token v) :
      Faulty n .number token (.invalidInteger n (String.ofList token))
  /-- It would be a weight if it were not negative. -/
  | negative {token : List Char} {z : Int} (integer : IsInteger token z) (fits : -2 ^ 63 ≤ z)
      (neg : z < 0) : Faulty n .weight token (.negativeWeight n z)
  /-- It is not a weight, and not for being negative. -/
  | weight {token : List Char} (bad : ∀ w, ¬IsWeight token w)
      (other : ∀ z, IsInteger token z → ¬(-2 ^ 63 ≤ z ∧ z < 0)) :
      Faulty n .weight token (.invalidInteger n (String.ofList token))

/-- The error of the first field that is not what it is meant to be. -/
inductive FirstFault (n : Nat) : List (Slot × List Char) → InstanceError → Prop
  /-- It is this one. -/
  | here {slot : Slot} {token : List Char} {slots : List (Slot × List Char)} {e : InstanceError}
      (faulty : Faulty n slot token e) : FirstFault n ((slot, token) :: slots) e
  /-- It is one of those after this one. -/
  | later {slot : Slot} {token : List Char} {slots : List (Slot × List Char)} {e : InstanceError}
      (accepted : slot.Accepts token) (rest : FirstFault n slots e) :
      FirstFault n ((slot, token) :: slots) e

/-- Why the statement of line `n` is refused. -/
inductive Blames (n : Nat) (text : List Char) : InstanceError → Prop
  /-- A field is to blame. -/
  | field {slots : List (Slot × List Char)} {e : InstanceError}
      (layout : Layout (fields text) slots)
      (fault : FirstFault n slots e) : Blames n text e
  /-- There are neither two fields nor three. -/
  | malformed (ne_two : (fields text).length ≠ 2) (ne_three : (fields text).length ≠ 3) :
      Blames n text (.malformedLine n (String.ofList text))

/-- The vertex at which the path is said to begin. -/
def Meaning.start? : Meaning → Option Vertex
  | start v => some v
  | _ => none

/-- The vertex at which the path is said to end. -/
def Meaning.goal? : Meaning → Option Vertex
  | goal v => some v
  | _ => none

/-- The vertex or edge that is added. -/
def Meaning.addition? : Meaning → Option Addition
  | adds c => some c
  | _ => none

/-- The starts that are given, in their order. -/
def starts (said : List Meaning) : List Vertex := said.filterMap Meaning.start?

/-- The goals that are given, in their order. -/
def goals (said : List Meaning) : List Vertex := said.filterMap Meaning.goal?

/-- The vertices and edges that are added, in their order. -/
def additions (said : List Meaning) : List Addition := said.filterMap Meaning.addition?

/-- Why the lines are not an instance. -/
inductive Refuses (lines : List (List Char)) : InstanceError → Prop
  /-- A line is to blame, and none before it is. -/
  | line {before after : List (List Char)} {line : List Char} {said : List Meaning}
      {e : InstanceError} (split : lines = before ++ line :: after)
      (recited : Recites Means before said) (speaks : ¬IsSilent line)
      (blamed : Blames (before.length + 1) (trim line) e) : Refuses lines e
  /-- No line is to blame, and none gives a start. -/
  | missingStart {said : List Meaning} (recited : Recites Means lines said)
      (never : starts said = []) : Refuses lines .missingStart
  /-- No line is to blame, there is a start, and no line gives a goal. -/
  | missingGoal {said : List Meaning} (recited : Recites Means lines said)
      (begun : starts said ≠ []) (never : goals said = []) : Refuses lines .missingGoal

variable {text token first second third : List Char} {n : Nat} {u v cell : Int32} {w : UInt32}
  {m : Meaning} {d d' : Draft} {e : InstanceError} {slot : Slot} {slots : List (Slot × List Char)}

/-! ### Reading a field -/

theorem readNumber_eq_ok (h : IsNumber token v) : readNumber n token = .ok v := by
  have hread : Text.signedOfWidth? 32 token = some v.toInt :=
    Text.signedOfWidth?_eq_some_iff.2 ⟨h, v.le_toInt, v.toInt_lt⟩
  rw [readNumber, hread]
  exact congrArg Except.ok v.ofInt_toInt

theorem readNumber_eq_error (h : Faulty n .number token e) : readNumber n token = .error e := by
  obtain ⟨bad⟩ := h
  have hnone : Text.signedOfWidth? 32 token = none := by
    refine Option.eq_none_iff_forall_ne_some.2 fun z hz ↦ ?_
    obtain ⟨hinteger, hlow, hhigh⟩ := Text.signedOfWidth?_eq_some_iff.1 hz
    refine bad (Int32.ofInt z) ?_
    rwa [IsNumber, Int32.toInt_ofInt_of_le hlow hhigh]
  rw [readNumber, hnone]

theorem readWeight_eq_ok (h : IsWeight token w) : readWeight n token = .ok w := by
  have hw := w.toNat_lt
  have hread : Text.signedOfWidth? 64 token = some (w.toNat : Int) :=
    Text.signedOfWidth?_eq_some_iff.2 ⟨h, by omega, by omega⟩
  rw [readWeight, hread]
  dsimp only
  rw [if_neg (by omega), if_pos (by rw [UInt32.size]; omega)]
  exact congrArg Except.ok UInt32.ofNat_toNat

theorem readWeight_eq_error (h : Faulty n .weight token e) : readWeight n token = .error e := by
  cases h with
  | @negative token z integer fits neg =>
    have hread : Text.signedOfWidth? 64 token = some z :=
      Text.signedOfWidth?_eq_some_iff.2 ⟨integer, fits, by omega⟩
    rw [readWeight, hread]
    exact if_pos neg
  | weight bad other =>
    rw [readWeight]
    cases hread : Text.signedOfWidth? 64 token with
    | none => rfl
    | some z =>
      obtain ⟨hinteger, hlow, -⟩ := Text.signedOfWidth?_eq_some_iff.1 hread
      have hneg : ¬z < 0 := fun hneg ↦ other z hinteger ⟨hlow, hneg⟩
      -- A number of 32 bits would be a weight.
      have hlarge : ¬z < UInt32.size := by
        intro hsmall
        obtain ⟨k, rfl⟩ := Int.eq_ofNat_of_zero_le (Int.not_lt.1 hneg)
        refine bad (UInt32.ofNat k) ?_
        rwa [IsWeight, UInt32.toNat_ofNat_of_lt' (Int.ofNat_lt.1 hsmall)]
      dsimp only
      rw [if_neg hneg, if_neg hlarge]

/-- A number is neither of the two letters. -/
theorem IsNumber.ne_start (h : IsNumber token v) : token ≠ ['S'] := by
  rintro rfl
  exact h.notMem (Or.inr (by decide)) (by decide) (by decide) List.mem_cons_self

theorem IsNumber.ne_goal (h : IsNumber token v) : token ≠ ['D'] := by
  rintro rfl
  exact h.notMem (Or.inr (by decide)) (by decide) (by decide) List.mem_cons_self

theorem isNumber_or_faulty (n : Nat) (token : List Char) :
    (∃ v, IsNumber token v) ∨ ∃ e, Faulty n .number token e := by
  by_cases h : ∃ v, IsNumber token v
  · exact Or.inl h
  · exact Or.inr ⟨_, .number (not_exists.1 h)⟩

theorem isWeight_or_faulty (n : Nat) (token : List Char) :
    (∃ w, IsWeight token w) ∨ ∃ e, Faulty n .weight token e := by
  by_cases h : ∃ w, IsWeight token w
  · exact Or.inl h
  · by_cases hneg : ∃ z, IsInteger token z ∧ -2 ^ 63 ≤ z ∧ z < 0
    · obtain ⟨z, hz, hlow, hz0⟩ := hneg
      exact Or.inr ⟨_, .negative hz hlow hz0⟩
    · exact Or.inr ⟨_, .weight (not_exists.1 h) fun z hz hbounds ↦ hneg ⟨z, hz, hbounds⟩⟩

/-- The fields are all what they are meant to be, or there is a first one that is not. -/
theorem accepts_or_firstFault (n : Nat) (slots : List (Slot × List Char)) :
    (∀ p ∈ slots, p.1.Accepts p.2) ∨ ∃ e, FirstFault n slots e := by
  induction slots with
  | nil => exact Or.inl (by simp)
  | cons p slots ih =>
    obtain ⟨slot, token⟩ := p
    have hfirst : slot.Accepts token ∨ ∃ e, Faulty n slot token e := by
      cases slot with
      | number => exact isNumber_or_faulty n token
      | weight => exact isWeight_or_faulty n token
    rcases hfirst with haccepted | ⟨e, hfaulty⟩
    · rcases ih with hrest | ⟨e, hrest⟩
      · exact Or.inl (List.forall_mem_cons.2 ⟨haccepted, hrest⟩)
      · exact Or.inr ⟨e, .later haccepted hrest⟩
    · exact Or.inr ⟨e, .here hfaulty⟩

/-! ### Reading a statement of each form -/

theorem readStatement_start (h : fields text = [['S'], token]) :
    readStatement d ⟨n, text⟩ = (do return { d with start := some (← readNumber n token) }) := by
  rw [readStatement]
  simp only [h]

theorem readStatement_goal (h : fields text = [['D'], token]) :
    readStatement d ⟨n, text⟩ = (do return { d with goal := some (← readNumber n token) }) := by
  rw [readStatement]
  simp only [h]

theorem readStatement_vertex (h : fields text = [first, second]) (hs : first ≠ ['S'])
    (hg : first ≠ ['D']) :
    readStatement d ⟨n, text⟩ = (do
      let v ← readNumber n first
      let cell ← readNumber n second
      return { d with network := d.network.addVertex v (.ofCell cell) }) := by
  -- By `hs` and `hg` neither of the forms with a letter comes before this one.
  rw [readStatement]
  simp only [h]

theorem readStatement_edge (h : fields text = [first, second, third]) :
    readStatement d ⟨n, text⟩ = (do
      let u ← readNumber n first
      let v ← readNumber n second
      let w ← readWeight n third
      return { d with network := d.network.addEdge u v w }) := by
  rw [readStatement]
  simp only [h]

theorem readStatement_malformed (h₂ : (fields text).length ≠ 2) (h₃ : (fields text).length ≠ 3) :
    readStatement d ⟨n, text⟩ = .error (.malformedLine n (String.ofList text)) := by
  rw [readStatement]
  dsimp only
  split
  · rename_i heq
    exact absurd (congrArg List.length heq) h₂
  · rename_i heq
    exact absurd (congrArg List.length heq) h₂
  · rename_i heq
    exact absurd (congrArg List.length heq) h₂
  · rename_i heq
    exact absurd (congrArg List.length heq) h₃
  · rfl

/-! ### The reader follows the grammar -/

/-- Takes up what a statement means. A start or a goal replaces the one before. -/
def Draft.take (d : Draft) : Meaning → Draft
  | .start v => { d with start := some v }
  | .goal v => { d with goal := some v }
  | .adds c => { d with network := d.network.record c }

theorem readStatement_of_means (h : Means text m) : readStatement d ⟨n, text⟩ = .ok (d.take m) := by
  cases h with
  | start form number =>
    rw [readStatement_start form, readNumber_eq_ok number]
    rfl
  | goal form number =>
    rw [readStatement_goal form, readNumber_eq_ok number]
    rfl
  | vertex form number packed =>
    rw [readStatement_vertex form number.ne_start number.ne_goal, readNumber_eq_ok number,
      ok_bind, readNumber_eq_ok packed]
    rfl
  | edge form number number' weight =>
    rw [readStatement_edge form, readNumber_eq_ok number, ok_bind, readNumber_eq_ok number',
      ok_bind, readWeight_eq_ok weight]
    rfl

theorem readStatement_of_layout (hlayout : Layout (fields text) slots)
    (hfault : FirstFault n slots e) : readStatement d ⟨n, text⟩ = .error e := by
  generalize hfields : fields text = tokens at hlayout
  cases hlayout with
  | start token =>
    rw [readStatement_start hfields]
    rcases hfault with ⟨hfirst⟩ | ⟨-, ⟨⟩⟩
    rw [readNumber_eq_error hfirst, error_bind]
  | goal token =>
    rw [readStatement_goal hfields]
    rcases hfault with ⟨hfirst⟩ | ⟨-, ⟨⟩⟩
    rw [readNumber_eq_error hfirst, error_bind]
  | vertex ne_start ne_goal =>
    rw [readStatement_vertex hfields ne_start ne_goal]
    rcases hfault with ⟨hfirst⟩ | ⟨⟨v, hv⟩, ⟨hsecond⟩ | ⟨-, ⟨⟩⟩⟩
    · rw [readNumber_eq_error hfirst, error_bind]
    · rw [readNumber_eq_ok hv, ok_bind, readNumber_eq_error hsecond, error_bind]
  | edge first second third =>
    rw [readStatement_edge hfields]
    rcases hfault with
      ⟨hfirst⟩ | ⟨⟨u, hu⟩, ⟨hsecond⟩ | ⟨⟨v, hv⟩, ⟨hthird⟩ | ⟨-, ⟨⟩⟩⟩⟩
    · rw [readNumber_eq_error hfirst, error_bind]
    · rw [readNumber_eq_ok hu, ok_bind, readNumber_eq_error hsecond, error_bind]
    · rw [readNumber_eq_ok hu, ok_bind, readNumber_eq_ok hv, ok_bind, readWeight_eq_error hthird,
        error_bind]

theorem readStatement_of_blames (h : Blames n text e) : readStatement d ⟨n, text⟩ = .error e := by
  rcases h with ⟨hlayout, hfault⟩ | ⟨hne₂, hne₃⟩
  · exact readStatement_of_layout hlayout hfault
  · exact readStatement_malformed hne₂ hne₃

/-- Two or three fields are of one of the four forms. -/
theorem exists_layout (h : (fields text).length = 2 ∨ (fields text).length = 3) :
    ∃ slots, Layout (fields text) slots := by
  rcases h with h | h
  · obtain ⟨first, second, hfields⟩ := List.length_eq_two.1 h
    rw [hfields]
    by_cases hs : first = ['S']
    · subst hs
      exact ⟨_, .start second⟩
    · by_cases hg : first = ['D']
      · subst hg
        exact ⟨_, .goal second⟩
      · exact ⟨_, .vertex hs hg⟩
  · obtain ⟨first, second, third, hfields⟩ := List.length_eq_three.1 h
    rw [hfields]
    exact ⟨_, .edge first second third⟩

/-- A statement whose fields are what they are meant to be means something. -/
theorem exists_means_of_layout (hlayout : Layout (fields text) slots)
    (haccepts : ∀ p ∈ slots, p.1.Accepts p.2) : ∃ m, Means text m := by
  generalize hfields : fields text = tokens at hlayout
  cases hlayout with
  | start token =>
    obtain ⟨v, hv⟩ := haccepts _ List.mem_cons_self
    exact ⟨_, .start hfields hv⟩
  | goal token =>
    obtain ⟨v, hv⟩ := haccepts _ List.mem_cons_self
    exact ⟨_, .goal hfields hv⟩
  | vertex _ _ =>
    obtain ⟨⟨v, hv⟩, ⟨cell, hcell⟩, -⟩ := by simpa only [List.forall_mem_cons] using haccepts
    exact ⟨_, .vertex hfields hv hcell⟩
  | edge first second third =>
    obtain ⟨⟨u, hu⟩, ⟨v, hv⟩, ⟨w, hw⟩, -⟩ := by simpa only [List.forall_mem_cons] using haccepts
    exact ⟨_, .edge hfields hu hv hw⟩

/-- A statement means something or is to blame. -/
theorem means_or_blames (n : Nat) (text : List Char) :
    (∃ m, Means text m) ∨ ∃ e, Blames n text e := by
  by_cases hcount : (fields text).length = 2 ∨ (fields text).length = 3
  · obtain ⟨slots, hlayout⟩ := exists_layout hcount
    rcases accepts_or_firstFault n slots with haccepts | ⟨e, hfault⟩
    · exact Or.inl (exists_means_of_layout hlayout haccepts)
    · exact Or.inr ⟨e, .field hlayout hfault⟩
  · obtain ⟨hne₂, hne₃⟩ := not_or.1 hcount
    exact Or.inr ⟨_, .malformed hne₂ hne₃⟩

/-- **The reader follows the grammar.** -/
theorem follows_readEntry :
    Text.Follows readEntry Means (fun d m ↦ some (d.take m)) fun _ ↦ Blames where
  accepts hm htake := Option.some.inj htake ▸ readStatement_of_means hm
  refuses := readStatement_of_blames
  decides d n text := by
    refine (means_or_blames n text).imp_left ?_
    rintro ⟨m, hm⟩
    exact ⟨m, _, hm, rfl⟩
  refuses_unread d e := ⟨_, rfl⟩

/-! ### What a text means -/

variable {said : List Meaning}

/-- **Of starts and goals the last one stands, and additions add up.** -/
theorem foldl_take (said : List Meaning) (d : Draft) :
    said.foldl Draft.take d =
      { start := (starts said).getLast?.or d.start
        goal := (goals said).getLast?.or d.goal
        network := (additions said).foldl Network.record d.network } := by
  induction said generalizing d with
  | nil => rfl
  | cons m said ih =>
    rw [List.foldl_cons, ih]
    cases m with
    | start v =>
      have hstarts : starts (.start v :: said) = v :: starts said := rfl
      rw [hstarts, List.getLast?_cons]
      cases (starts said).getLast? <;> rfl
    | goal v =>
      have hgoals : goals (.goal v :: said) = v :: goals said := rfl
      rw [hgoals, List.getLast?_cons]
      cases (goals said).getLast? <;> rfl
    | adds c => rfl

/-- What a text comes to whose lines mean `said`. -/
def outcome (said : List Meaning) : Except InstanceError Instance :=
  match (starts said).getLast?, (goals said).getLast? with
  | none, _ => .error .missingStart
  | some _, none => .error .missingGoal
  | some start, some goal => .ok ⟨.declared (additions said), start, goal⟩

theorem outcome_eq_ok_iff {i : Instance} :
    outcome said = .ok i ↔ (starts said).getLast? = some i.start ∧
      (goals said).getLast? = some i.goal ∧ i.network = .declared (additions said) := by
  obtain ⟨network, start, goal⟩ := i
  rw [outcome]
  cases (starts said).getLast? with
  | none => simp
  | some start =>
    cases (goals said).getLast? with
    | none => simp
    | some goal => simp [eq_comm, and_comm, and_assoc]

theorem outcome_eq_error_iff :
    outcome said = .error e ↔ starts said = [] ∧ e = .missingStart ∨
      starts said ≠ [] ∧ goals said = [] ∧ e = .missingGoal := by
  have hstarts : starts said = [] ↔ (starts said).getLast? = none := List.getLast?_eq_none_iff.symm
  have hgoals : goals said = [] ↔ (goals said).getLast? = none := List.getLast?_eq_none_iff.symm
  simp only [outcome, ne_eq, hstarts, hgoals]
  cases (starts said).getLast? with
  | none => simpa using eq_comm
  | some start =>
    cases (goals said).getLast? with
    | none => simpa using eq_comm
    | some goal => simp

section Parsing

variable {source : Source} {lines : List (List Char)} {i : Instance}

/-- What is left by reading what lines mean. -/
def draftOf (said : List Meaning) : Draft :=
  { start := (starts said).getLast?
    goal := (goals said).getLast?
    network := .declared (additions said) }

/-- **The statements are read to their end exactly if all of them mean something.** -/
theorem run_eq_ok_iff (hlines : source.lines = lines.map .ok) :
    source.statements.foldlM readEntry {} = .ok d ↔
      ∃ said, Recites Means lines said ∧ draftOf said = d := by
  have htake : ∀ said : List Meaning,
      said.foldlM (fun d m ↦ some (Draft.take d m)) {} = some d ↔ draftOf said = d := fun said ↦ by
    have hfold :
        said.foldlM (fun d m ↦ some (Draft.take d m)) {} = some (said.foldl Draft.take {}) :=
      List.foldlM_pure
    rw [hfold, foldl_take, Option.some.injEq, Option.or_none, Option.or_none]
    rfl
  rw [Text.Source.statements_eq, hlines, follows_readEntry.run_eq_ok_iff]
  simp only [htake]

theorem run_eq_error_iff (hlines : source.lines = lines.map .ok) :
    source.statements.foldlM readEntry {} = .error e ↔
      ∃ before line after said, lines = before ++ line :: after ∧ Recites Means before said ∧
        ¬IsSilent line ∧ Blames (before.length + 1) (trim line) e := by
  rw [Text.Source.statements_eq, hlines, follows_readEntry.run_eq_error_iff]
  have hfold : ∀ said : List Meaning,
      ∃ d, said.foldlM (fun d m ↦ some (Draft.take d m)) {} = some d :=
    fun said ↦ ⟨_, List.foldlM_pure⟩
  constructor
  · rintro ⟨before, line, after, said, _, hsplit, hsaid, -, hspeaks, hblamed⟩
    exact ⟨before, line, after, said, hsplit, hsaid, hspeaks, by rwa [Nat.zero_add] at hblamed⟩
  · rintro ⟨before, line, after, said, hsplit, hsaid, hspeaks, hblamed⟩
    obtain ⟨d, hd⟩ := hfold said
    exact ⟨before, line, after, said, d, hsplit, hsaid, hd, hspeaks, by rwa [Nat.zero_add]⟩

theorem parse_of_recites (hlines : source.lines = lines.map .ok)
    (hsaid : Recites Means lines said) : parse source = outcome said := by
  rw [parse, (run_eq_ok_iff hlines).2 ⟨said, hsaid, rfl⟩, ok_bind, outcome]
  dsimp only [draftOf]
  cases (starts said).getLast? with
  | none => rfl
  | some start => cases (goals said).getLast? <;> rfl

/-- **A text is read as an instance exactly if its lines mean one.** -/
theorem parse_eq_ok_iff (hlines : source.lines = lines.map .ok) :
    parse source = .ok i ↔ ∃ said, Recites Means lines said ∧ outcome said = .ok i := by
  constructor
  · intro h
    obtain ⟨d, hrun, -⟩ := bind_eq_ok_iff.1 h
    obtain ⟨said, hsaid, -⟩ := (run_eq_ok_iff hlines).1 hrun
    exact ⟨said, hsaid, (parse_of_recites hlines hsaid).symm.trans h⟩
  · rintro ⟨said, hsaid, h⟩
    exact (parse_of_recites hlines hsaid).trans h

/-- **A text is refused for the first line to blame**, or for a missing start or goal. -/
theorem parse_eq_error_iff (hlines : source.lines = lines.map .ok) :
    parse source = .error e ↔ Refuses lines e := by
  constructor
  · intro h
    cases hrun : source.statements.foldlM readEntry {} with
    | error e' =>
      rw [parse, hrun, error_bind] at h
      obtain rfl := Except.error.inj h
      obtain ⟨before, line, after, said, hsplit, hsaid, hspeaks, hblamed⟩ :=
        (run_eq_error_iff hlines).1 hrun
      exact .line hsplit hsaid hspeaks hblamed
    | ok d =>
      obtain ⟨said, hsaid, -⟩ := (run_eq_ok_iff hlines).1 hrun
      rw [parse_of_recites hlines hsaid, outcome_eq_error_iff] at h
      rcases h with ⟨hnever, rfl⟩ | ⟨hbegun, hnever, rfl⟩
      · exact .missingStart hsaid hnever
      · exact .missingGoal hsaid hbegun hnever
  · rintro (⟨hsplit, hsaid, hspeaks, hblamed⟩ | ⟨hsaid, hnever⟩ | ⟨hsaid, hbegun, hnever⟩)
    · rw [parse, (run_eq_error_iff hlines).2 ⟨_, _, _, _, hsplit, hsaid, hspeaks, hblamed⟩,
        error_bind]
    · exact (parse_of_recites hlines hsaid).trans
        (outcome_eq_error_iff.2 (Or.inl ⟨hnever, rfl⟩))
    · exact (parse_of_recites hlines hsaid).trans
        (outcome_eq_error_iff.2 (Or.inr ⟨hbegun, hnever, rfl⟩))

/-- **The pathfinding instances are the texts of the grammar.** A text whose lines can all be read
is an instance exactly if each line that is not silent means something, and a start and a goal are
given. The start and the goal are then the last ones, a vertex is where the last line on it places
it, and its edges are in the order of their lines. Every other text is refused, for the first line
to blame if there is one. -/
theorem parse_obeys_grammar (source : Source) (lines : List (List Char))
    (hlines : source.lines = lines.map .ok) :
    ((∃ i, parse source = .ok i) ↔
        ∃ said, Recites Means lines said ∧ starts said ≠ [] ∧ goals said ≠ []) ∧
      (∀ i said, parse source = .ok i → Recites Means lines said →
        (starts said).getLast? = some i.start ∧ (goals said).getLast? = some i.goal ∧
          (∀ v, i.network.coordinateOf v =
            (additions said).reverse.findSome? (Addition.placeOf? v)) ∧
          ∀ v, i.network.edgesOf v = (additions said).flatMap (Addition.entriesAt v)) ∧
      ∀ e, parse source = .error e ↔ Refuses lines e := by
  refine ⟨?_, ?_, fun e ↦ parse_eq_error_iff hlines⟩
  · simp only [parse_eq_ok_iff hlines, outcome_eq_ok_iff]
    constructor
    · rintro ⟨i, said, hsaid, hstart, hgoal, -⟩
      refine ⟨said, hsaid, ?_, ?_⟩
      · exact List.getLast?_isSome.1 (hstart ▸ rfl)
      · exact List.getLast?_isSome.1 (hgoal ▸ rfl)
    · rintro ⟨said, hsaid, hstarts, hgoals⟩
      exact
        ⟨⟨.declared (additions said), (starts said).getLast hstarts, (goals said).getLast hgoals⟩,
          said, hsaid, List.getLast?_eq_some_getLast hstarts,
          List.getLast?_eq_some_getLast hgoals, rfl⟩
  · intro i said hi hsaid
    obtain ⟨hstart, hgoal, hnetwork⟩ :=
      outcome_eq_ok_iff.1 ((parse_of_recites hlines hsaid).symm.trans hi)
    refine ⟨hstart, hgoal, fun v ↦ ?_, fun v ↦ ?_⟩
    · rw [hnetwork, Network.coordinateOf_declared]
    · rw [hnetwork, Network.edgesOf_declared]

/-- A start that is replaced, a vertex that is placed twice, an edge and a loop in a text with a
comment and blanks; and a text in which the weight of the second line is negative, though it gives
no goal either. -/
theorem parse_obeys_grammar_replaced :
    (∃ i, parse (.ofString "S,1\n#\nS, 3\n3,42\n3,-17\n1,3,+5\nD,1\n 3,3,2") = .ok i ∧
      i.start = 3 ∧ i.goal = 1 ∧ i.network.coordinateOf 3 = some ⟨-1, -7⟩ ∧
      i.network.edgesOf 3 = [⟨1, 5⟩, ⟨3, 2⟩, ⟨3, 2⟩]) ∧
    parse (.ofString "S,1\n1,2,-3") = .error (.negativeWeight 2 (-3)) := by
  have hlines : (Source.ofString "S,1\n#\nS, 3\n3,42\n3,-17\n1,3,+5\nD,1\n 3,3,2").lines =
      [['S', ',', '1'], ['#'], ['S', ',', ' ', '3'], ['3', ',', '4', '2'],
        ['3', ',', '-', '1', '7'], ['1', ',', '3', ',', '+', '5'], ['D', ',', '1'],
        [' ', '3', ',', '3', ',', '2']].map .ok := by decide +kernel
  have hsaid : Recites Means [['S', ',', '1'], ['#'], ['S', ',', ' ', '3'], ['3', ',', '4', '2'],
      ['3', ',', '-', '1', '7'], ['1', ',', '3', ',', '+', '5'], ['D', ',', '1'],
      [' ', '3', ',', '3', ',', '2']]
      [.start 1, .start 3, .adds (.vertex 3 (.ofCell 42)), .adds (.vertex 3 (.ofCell (-17))),
        .adds (.edge 1 3 5), .goal 1, .adds (.edge 3 3 2)] := by
    refine .spoken (by decide) (.start rfl (by decide)) (.silent (by decide) ?_)
    refine .spoken (by decide) (.start rfl (by decide)) ?_
    refine .spoken (by decide) (.vertex rfl (by decide) (by decide)) ?_
    refine .spoken (by decide) (.vertex rfl (by decide) (by decide)) ?_
    refine .spoken (by decide) (.edge rfl (by decide) (by decide) (by decide)) ?_
    refine .spoken (by decide) (.goal rfl (by decide)) ?_
    exact .spoken (by decide) (.edge rfl (by decide) (by decide) (by decide)) .nil
  obtain ⟨hexists, hread, -⟩ := parse_obeys_grammar _ _ hlines
  obtain ⟨i, hi⟩ := hexists.2 ⟨_, hsaid, by decide, by decide⟩
  obtain ⟨hstart, hgoal, hplaces, hedges⟩ := hread i _ hi hsaid
  have hrefused : Refuses [['S', ',', '1'], ['1', ',', '2', ',', '-', '3']]
      (.negativeWeight 2 (-3)) := by
    have hsplit : [['S', ',', '1'], ['1', ',', '2', ',', '-', '3']] =
        [['S', ',', '1']] ++ ['1', ',', '2', ',', '-', '3'] :: [] := rfl
    have hlayout : Layout (fields (trim ['1', ',', '2', ',', '-', '3']))
        [(.number, ['1']), (.number, ['2']), (.weight, ['-', '3'])] := .edge _ _ _
    have hfault : Faulty 2 .weight ['-', '3'] (.negativeWeight 2 (-3)) :=
      .negative (by decide) (by decide) (by decide)
    have hbefore : Recites Means [['S', ',', '1']] [.start 1] :=
      .spoken (by decide) (.start rfl (by decide)) .nil
    exact .line hsplit hbefore (by decide)
      (.field hlayout (.later ⟨1, by decide⟩ (.later ⟨2, by decide⟩ (.here hfault))))
  refine ⟨⟨i, hi, ?_, ?_, ?_, ?_⟩, ?_⟩
  · exact Option.some.inj (hstart.symm.trans rfl)
  · exact Option.some.inj (hgoal.symm.trans rfl)
  · exact (hplaces 3).trans (by decide)
  · exact (hedges 3).trans (by decide)
  · exact ((parse_obeys_grammar _ _ (by decide +kernel)).2.2 _).2 hrefused

end Parsing

end Instance

end GraphSearch.Route
