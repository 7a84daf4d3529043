import GraphSearch.Proofs.Colouring.NarrowedNodes
import GraphSearch.Proofs.Colouring.SearchBalance

/-!
# What narrowing saves

With the variables and their colours in order, narrowing never adds to a search. Two searches of one
graph are compared here, one with narrowing and one without, at nodes with the same assignment. The
domains of the first are within those of the second (`Search.Sharper`), and they still contain every
colouring that extends the assignment within the domains of the root.

* A decision that the first search can propagate, the second one can as well, and the domains that
  are left compare in the same way: what narrowing and propagation leave is a closed sub-store of
  what the second search propagates (`Sharper.isClosedIn`), which leaves the greatest of these.
* A colour that the first search does not try, or tries in vain, is none of a colouring that
  completes the root. So the second search, if it tries the colour, fails below it
  (`Within.exists_completes_of_attempt`).

Both select the same variables, since the lowest one without a colour does not depend on domains.
So whatever the first search tries, the second one tries, in the same order, and some more in
between (`Explores.sublist`).
-/

namespace GraphSearch.Colouring

open Relation

/-- A domain in order that is within another one stands in its order. -/
theorem Store.sublist_of_subset {d e : Store} {x : Variable} (hd : d.Ascending) (he : e.Ascending)
    (h : d.coloursAt x ⊆ e.coloursAt x) : (d.coloursAt x).Sublist (e.coloursAt x) :=
  List.sublist_of_subperm_of_pairwise
    (List.subperm_of_subset ((hd x).imp fun hlt ↦ hlt.ne) h) (hd x) (he x)

namespace Search

variable {σ : Type} {p : Problem σ} {g : Graph} {root store d e d' e' : Store} {a : Assignment}
  {s t u v w : State σ} {x : Variable} {c : Colour} {cs cs' : List Colour}
  {tried : List Assignment} {found : Bool} {f : Variable → Colour}

/-- A colouring that completes a decision gives the variable its colour, and completes what was
decided before. -/
theorem Completes.of_assign {b : Assignment} (h : Completes f g store b)
    (hassign : a.assign x c = .ok b) : f x = c ∧ Completes f g store a := by
  obtain ⟨-, hnone, -, -, hcolour⟩ := Assignment.of_assign_eq_ok hassign
  refine ⟨h.extends_assignment x c ((hcolour x).trans (if_pos rfl)), h.proper, fun y b hy ↦ ?_,
    h.within⟩
  refine h.extends_assignment y b ?_
  rw [hcolour, if_neg, hy]
  rintro rfl
  cases hnone.symm.trans hy

/-! ### A node of a search from given domains -/

/-- What is known at a node of a search that started from the domains of the root. -/
structure Within (g : Graph) (root store : Store) (a : Assignment) : Prop where
  /-- Graph, domains and assignment fit each other. -/
  fits : Context.Fits ⟨g, store, a⟩
  /-- Domains are in order and repeat no colour. -/
  ascending : store.Ascending
  /-- The domains are within those of the root. -/
  subset : ∀ y, store.coloursAt y ⊆ root.coloursAt y
  /-- Neighbours have different colours. -/
  proper : a.IsProper g
  /-- What was assigned was left for its variable at the root. -/
  assigned : ∀ y b, a.colourAt y = some b → b ∈ root.coloursAt y

namespace Within

/-- A decision keeps what is known. -/
theorem decide (h : Within p.graph root store s.assignment) (hc : c ∈ store.coloursAt x)
    (consistent : s.assignment.isConsistent p.graph x c = .ok true) {b : Option Store}
    (attempted : attempt p store x c s = .ok (b, u)) :
    u.assignment.IsProper p.graph ∧
      ∀ y b, u.assignment.colourAt y = some b → b ∈ root.coloursAt y := by
  have hassign := (of_attempt_eq_ok attempted).1
  have hstep : Assignment.Decides p.graph s.assignment u.assignment :=
    ⟨x, c, Assignment.of_isConsistent_eq_ok_true consistent, hassign⟩
  refine ⟨Assignment.isProper_of_reflTransGen h.fits.simple (.single hstep) h.proper, ?_⟩
  intro y b hy
  rw [(Assignment.of_assign_eq_ok hassign).2.2.2.2] at hy
  split at hy
  · rename_i hyx
    rw [hyx, ← Option.some.inj hy]
    exact h.subset x hc
  · exact h.assigned y b hy

theorem attempt (h : Within p.graph root store s.assignment) (hc : c ∈ store.coloursAt x)
    (consistent : s.assignment.isConsistent p.graph x c = .ok true)
    (attempted : attempt p store x c s = .ok (some d, u)) :
    Within p.graph root d u.assignment := by
  obtain ⟨hfits, hsub⟩ := fits_of_attempt h.fits attempted
  obtain ⟨hproper, hassigned⟩ := h.decide hc consistent attempted
  exact ⟨hfits, h.ascending.of_sublist hsub, fun y ↦ List.Subset.trans (hsub y).subset (h.subset y),
    hproper, hassigned⟩

/-- **What is found below a node completes the root.** -/
theorem exists_completes (h : Within p.graph root store s.assignment)
    (hp : p.strategy.KeepsContracts p.graph fun _ ↦ True)
    (hfound : Explores p .node store s tried true t) :
    ∃ f, Completes f p.graph root s.assignment := by
  obtain ⟨hchain, hcomplete⟩ := hfound.effect.2 rfl
  have hcoherent : s.assignment.Coherent := h.fits.coherent
  obtain ⟨htcoherent, htsize⟩ := hcoherent.of_reflTransGen hchain
  have hproper := Assignment.isProper_of_reflTransGen h.fits.simple hchain h.proper
  have hextends : ∀ y b, s.assignment.colourAt y = some b → t.assignment.colourAt y = some b :=
    fun y b hy ↦ Assignment.colourAt_of_reflTransGen hchain hy
  have hroot : ∀ y b, t.assignment.colourAt y = some b → b ∈ root.coloursAt y := fun y b hy ↦ by
    rcases (hfound.verdict hp h.fits trivial trivial).within rfl y b hy with hbefore | hleft
    · exact h.assigned y b hbefore
    · exact h.subset y hleft
  obtain ⟨f, hf, -⟩ := exists_completes_of_isComplete h.fits.simple htcoherent
    (htsize.trans h.fits.size_assignment) hproper hcomplete hextends hroot
  exact ⟨f, hf⟩

/-- A decision below which something is found is one of a colouring that completes the root. -/
theorem exists_completes_of_attempt (h : Within p.graph root store s.assignment)
    (hp : p.strategy.KeepsContracts p.graph fun _ ↦ True) (hc : c ∈ store.coloursAt x)
    (consistent : s.assignment.isConsistent p.graph x c = .ok true)
    (attempted : Search.attempt p store x c s = .ok (some d, u))
    (below : Explores p .node d u tried true t) :
    ∃ f, f x = c ∧ Completes f p.graph root s.assignment := by
  obtain ⟨f, hf⟩ := (h.attempt hc consistent attempted).exists_completes hp below
  exact ⟨f, hf.of_assign (of_attempt_eq_ok attempted).1⟩

end Within

/-! ### Two nodes with the same assignment -/

/-- The domains `d` say no less than the domains `e`, and nothing that is false of a colouring that
extends the assignment within the domains of the root. -/
structure Sharper (g : Graph) (root d e : Store) (a : Assignment) : Prop where
  /-- What is known of the node with the domains `d`. -/
  left : Within g root d a
  /-- What is known of the node with the domains `e`. -/
  right : Within g root e a
  /-- The domains `d` are within the domains `e`. -/
  subset : ∀ y, d.coloursAt y ⊆ e.coloursAt y
  /-- None of them is empty where that of `e` is not. -/
  eq_nil : ∀ y, d.coloursAt y = [] → e.coloursAt y = []
  /-- They contain all colourings. -/
  keeps : ∀ f, Completes f g root a → Completes f g d a

/-- The search with the variables and their colours in order. -/
def inOrder (g : Graph) (narrow : Bool) : Problem Memory :=
  ⟨g, ⟨.inputOrder, .inDomainOrder⟩, narrow⟩

theorem keepsContracts_inOrder (g : Graph) (narrow : Bool) :
    (inOrder g narrow).strategy.KeepsContracts g fun _ ↦ True :=
  ⟨VariableSelector.keepsContract_inputOrder g _, ValueSelector.keepsContract_inDomainOrder g _⟩

section

variable {narrow : Bool} {s : State Memory} {r : Selected Memory} {m m' : Memory}

/-- In order the lowest variable without a colour is selected. -/
theorem choice_eq_firstOpen (hfits : Context.Fits ⟨g, store, s.assignment⟩)
    (selected : (inOrder g narrow).strategy.selectVariable ((inOrder g narrow).contextAt store s)
      m = .ok r) : r.choice = Context.firstOpen ⟨g, store, s.assignment⟩ := by
  obtain rfl := Except.ok.inj ((VariableSelector.inputOrder_eq_ok hfits _).symm.trans selected)
  rfl

/-- In order the colours of its domain are tried. -/
theorem eq_coloursAt_of_ordered (hfits : Context.Fits ⟨g, store, s.assignment⟩) (hx : x < g.size)
    (ordered : (inOrder g narrow).strategy.orderColours ((inOrder g narrow).contextAt store s) x
      m = .ok (cs, m')) : cs = store.coloursAt x := by
  have hcolours := (ValueSelector.inDomainOrder_eq_ok hfits hx _).symm.trans ordered
  exact (Prod.mk.inj (Except.ok.inj hcolours)).1.symm

end

/-- Without narrowing an attempt propagates the domains of the node. It succeeds if they have a
closed sub-store, and leaves no less than that. -/
theorem exists_above_of_attempt (hfits : (p.contextAt store s).Fits) (hnarrow : p.narrow = false)
    (hclosed : d.IsClosedIn p.graph store) {b : Option Store}
    (hattempt : attempt p store x c s = .ok (b, u)) :
    ∃ e, b = some e ∧ (∀ y, e.coloursAt y ⊆ store.coloursAt y) ∧
      ∀ y, d.coloursAt y ⊆ e.coloursAt y := by
  obtain ⟨-, -, store', o, k, hbranch, ho, rfl⟩ := of_attempt_eq_ok hattempt
  rw [Problem.branch, if_neg (by rw [hnarrow]; exact Bool.false_ne_true)] at hbranch
  obtain rfl := Except.ok.inj hbranch
  have hends := ends_of_propagate hfits.simple hfits.size_store.ge ho
  have hnone : o.wipedOut = none := (hends.eq_none_iff hfits.simple).2 ⟨d, hclosed⟩
  have hsound := (hnone ▸ hends).sound hfits.simple
  exact ⟨o.store, by rw [hnone]; rfl, hsound.subset, hsound.above d hclosed⟩

/-- The same decision on the same assignment gives the same assignment. -/
theorem assignment_of_attempts {q : Problem σ} {s' u' : State σ} {b b' : Option Store}
    (hs : s'.assignment = s.assignment) (hattempt : attempt p store x c s = .ok (b, u))
    (hattempt' : attempt q e x c s' = .ok (b', u')) : u'.assignment = u.assignment := by
  have hassign := (of_attempt_eq_ok hattempt).1
  have hassign' := (of_attempt_eq_ok hattempt').1
  rw [hs] at hassign'
  exact Except.ok.inj (hassign'.symm.trans hassign)

namespace Sharper

variable {s s' u u' : State Memory}

/-- **What narrowing and propagation leave is closed in the domains without narrowing.** -/
theorem isClosedIn (h : Sharper g root d e s.assignment) (hc : c ∈ d.coloursAt x)
    (hattempt : attempt (inOrder g true) d x c s = .ok (some d', u)) : d'.IsClosedIn g e := by
  have hfits : ((inOrder g true).contextAt d s).Fits := h.left.fits
  obtain ⟨branch, hbranch, hsound⟩ := exists_sound_of_attempt hfits hattempt
  obtain ⟨hsize, hsub, -⟩ := of_branch_eq_ok hbranch
  have hcolours := coloursAt_of_branch rfl h.left.ascending hc hbranch
  have hsame : d.size = e.size := h.left.fits.size_store.trans h.right.fits.size_store.symm
  refine ⟨(hsound.size_eq.trans hsize).trans hsame, fun y ↦ ?_, fun y hnil ↦ ?_,
    hsound.isGreatest.1.closed⟩
  · exact List.Subset.trans (hsound.subset y) (List.Subset.trans (hsub y).subset (h.subset y))
  · -- The variable that was decided keeps its colour, and no other domain was narrowed.
    have hbefore := hsound.eq_nil y hnil
    rw [hcolours] at hbefore
    split at hbefore
    · cases hbefore
    · exact h.eq_nil y hbefore

/-- **The same decision at both nodes.** If the first search can propagate it, so can the second,
and the domains that are left compare as they did. -/
theorem attempt (h : Sharper g root d e s.assignment) (hs : s'.assignment = s.assignment)
    (hc : c ∈ d.coloursAt x) (consistent : s.assignment.isConsistent g x c = .ok true)
    (hattempt : attempt (inOrder g true) d x c s = .ok (some d', u)) {b : Option Store}
    (hattempt' : Search.attempt (inOrder g false) e x c s' = .ok (b, u')) :
    ∃ e', b = some e' ∧ u'.assignment = u.assignment ∧ Sharper g root d' e' u.assignment := by
  have hright : Within g root e s'.assignment := hs ▸ h.right
  have hfits : ((inOrder g true).contextAt d s).Fits := h.left.fits
  have hfits' : ((inOrder g false).contextAt e s').Fits := hright.fits
  have hclosed := h.isClosedIn hc hattempt
  obtain ⟨e', rfl, hsub, habove⟩ := exists_above_of_attempt hfits' rfl hclosed hattempt'
  have hsame := assignment_of_attempts hs hattempt hattempt'
  refine ⟨e', rfl, hsame, h.left.attempt hc consistent hattempt,
    hsame ▸ hright.attempt (h.subset x hc) (hs ▸ consistent) hattempt', habove, fun y hnil ↦ ?_,
    fun f hf ↦ ?_⟩
  · exact List.eq_nil_of_subset_nil (hclosed.eq_nil y hnil ▸ hsub y)
  · obtain ⟨rfl, hbefore⟩ := hf.of_assign (of_attempt_eq_ok hattempt).1
    obtain ⟨d'', hd, hafter⟩ := (h.keeps f hbefore).attempt hfits hattempt
    obtain rfl := Option.some.inj hd
    exact hafter

end Sharper

/-! ### The colours that are still to be tried -/

/-- The colours `cs` are still to be tried for `x` at the node with the domains `d`, and the colours
`cs'` at that with the domains `e`. The first are some of the second, in the same order, and those
that are missing are none of a colouring that completes the root. -/
structure Aligned (g : Graph) (root d e : Store) (a : Assignment) (x : Variable)
    (cs cs' : List Colour) : Prop where
  /-- The first search tries no other colours, in no other order. -/
  sublist : cs.Sublist cs'
  /-- No colour is tried again. -/
  nodup : cs'.Nodup
  /-- The first search takes them from its domain. -/
  left : cs ⊆ d.coloursAt x
  /-- The second search takes them from its domain. -/
  right : cs' ⊆ e.coloursAt x
  /-- The first search tries every colour that leads to a colouring. -/
  keeps : ∀ f, Completes f g root a → f x ∈ cs' → f x ∈ cs

namespace Aligned

/-- At a node all colours of the domains are still to be tried. -/
theorem of_sharper (h : Sharper g root d e a) (hx : x < g.size) :
    Aligned g root d e a x (d.coloursAt x) (e.coloursAt x) where
  sublist := Store.sublist_of_subset h.left.ascending h.right.ascending (h.subset x)
  nodup := (h.right.ascending x).imp fun hlt ↦ hlt.ne
  left := List.Subset.refl _
  right := List.Subset.refl _
  keeps f hf _ := (h.keeps f hf).within x hx

/-- The next colour of the second search is one that the first does not try, or its next one too. -/
theorem eq_cons_or_not_mem (h : Aligned g root d e a x cs (c :: cs')) :
    (c ∉ cs ∧ Aligned g root d e a x cs cs') ∨
      ∃ rest, cs = c :: rest ∧ c ∈ d.coloursAt x ∧ Aligned g root d e a x rest cs' := by
  obtain ⟨hnew, hnodup⟩ := List.nodup_cons.1 h.nodup
  have hright : cs' ⊆ e.coloursAt x := (List.cons_subset.1 h.right).2
  rcases List.sublist_cons_iff.1 h.sublist with hsub | ⟨rest, rfl, hsub⟩
  · refine Or.inl ⟨fun hmem ↦ hnew (hsub.subset hmem), hsub, hnodup, h.left, hright, ?_⟩
    exact fun f hf hmem ↦ h.keeps f hf (List.mem_cons_of_mem c hmem)
  · obtain ⟨hc, hleft⟩ := List.cons_subset.1 h.left
    refine Or.inr ⟨rest, rfl, hc, hsub, hnodup, hleft, hright, fun f hf hmem ↦ ?_⟩
    refine (List.mem_cons.1 (h.keeps f hf (List.mem_cons_of_mem c hmem))).resolve_left ?_
    rintro rfl
    exact hnew hmem

end Aligned

/-! ### What the two searches try -/

/-- How the stages of the two searches correspond. -/
inductive Stage.Corresponds (g : Graph) (root d e : Store) (a : Assignment) :
    Stage → Stage → Prop where
  /-- Both are at a node. -/
  | node : Corresponds g root d e a .node .node
  /-- Both are about to try colours of a variable that has none yet. -/
  | trying {x : Variable} {cs cs' : List Colour} (aligned : Aligned g root d e a x cs cs') :
      Corresponds g root d e a (.trying x cs) (.trying x cs')

variable {s s' t t' u' : State Memory} {b' : Option Store} {stage stage' : Stage}
  {tried' : List Assignment} {found' : Bool}

/-- At a node the search in order goes on with the domain of the lowest variable that has no
colour. -/
theorem Explores.of_firstOpen {narrow : Bool} (hfits : Context.Fits ⟨g, store, s.assignment⟩)
    (incomplete : s.assignment.isComplete = false)
    (hfirst : Context.firstOpen ⟨g, store, s.assignment⟩ = some x)
    (h : Explores (inOrder g narrow) .node store s tried found t) :
    ∃ w, w.assignment = s.assignment ∧
      Explores (inOrder g narrow) (.trying x (store.coloursAt x)) store w tried found t := by
  cases h with
  | complete complete => cases complete.symm.trans incomplete
  | givenUp _ selected choice =>
    rw [choice_eq_firstOpen hfits selected, hfirst] at choice
    cases choice
  | branched _ selected choice ordered rest =>
    rw [choice_eq_firstOpen hfits selected, hfirst] at choice
    obtain rfl := Option.some.inj choice
    have hx := (Context.firstOpen_eq_some_iff.1 hfirst).1.1
    obtain rfl := eq_coloursAt_of_ordered hfits hx ordered
    refine ⟨_, ?_, rest⟩
    rfl

/-- What the first search does about a colour that both of them try: its decision empties a domain,
or fails, or succeeds. Unless it empties a domain, the decision of the second search does not
either, and the domains below compare as they did. -/
theorem Sharper.cases_of_consistent (hsharper : Sharper g root d e s.assignment)
    (hs : s'.assignment = s.assignment) (hc : c ∈ d.coloursAt x)
    (consistent : s'.assignment.isConsistent g x c = .ok true)
    (attempted : Search.attempt (inOrder g false) e x c s' = .ok (b', u'))
    (h : Explores (inOrder g true) (.trying x (c :: cs)) d s tried found t) :
    (∃ u w rest, Search.attempt (inOrder g true) d x c s = .ok (none, u) ∧
        w.assignment = s.assignment ∧ Explores (inOrder g true) (.trying x cs) d w rest found t ∧
        tried = u'.assignment :: rest) ∨
      (∃ d' e' u v w inner rest, b' = some e' ∧ u'.assignment = u.assignment ∧
        Sharper g root d' e' u.assignment ∧ Explores (inOrder g true) .node d' u inner false v ∧
        w.assignment = s.assignment ∧ Explores (inOrder g true) (.trying x cs) d w rest found t ∧
        tried = u'.assignment :: (inner ++ rest)) ∨
      ∃ d' e' u inner, b' = some e' ∧ u'.assignment = u.assignment ∧
        Sharper g root d' e' u.assignment ∧ Explores (inOrder g true) .node d' u inner true t ∧
        found = true ∧ tried = u'.assignment :: inner := by
  rw [hs] at consistent
  cases h with
  | skipped contradicted => cases contradicted.symm.trans consistent
  | wiped _ hattempt retracted rest =>
    rw [assignment_of_attempts hs hattempt attempted]
    exact Or.inl ⟨_, _, _, hattempt, (assignment_of_retract hattempt rfl retracted).1, rest, rfl⟩
  | failed _ hattempt below retracted rest =>
    obtain ⟨e', hb, hsame, hchild⟩ := hsharper.attempt hs hc consistent hattempt attempted
    rw [hsame]
    have hback := assignment_of_retract hattempt (below.effect.1 rfl) retracted
    exact Or.inr (Or.inl ⟨_, e', _, _, _, _, _, hb, rfl, hchild, below, hback.1, rest, rfl⟩)
  | succeeded _ hattempt below =>
    obtain ⟨e', hb, hsame, hchild⟩ := hsharper.attempt hs hc consistent hattempt attempted
    rw [hsame]
    exact Or.inr (Or.inr ⟨_, e', _, _, hb, rfl, hchild, below, rfl, rfl⟩)

/-- **What is tried with narrowing is tried without it, in the same order**, from nodes with the
same assignment, and the two searches come to the same answer. -/
theorem Explores.sublist (h' : Explores (inOrder g false) stage' e s' tried' found' t')
    (h : Explores (inOrder g true) stage d s tried found t) (hs : s'.assignment = s.assignment)
    (hsharper : Sharper g root d e s.assignment)
    (hstage : Stage.Corresponds g root d e s.assignment stage stage') :
    found = found' ∧ tried.Sublist tried' := by
  induction h' generalizing stage d s tried found t with
  | complete complete =>
    cases hstage
    rw [hs] at complete
    cases h with
    | complete => exact ⟨rfl, .refl _⟩
    | givenUp incomplete => cases complete.symm.trans incomplete
    | branched incomplete => cases complete.symm.trans incomplete
  | @givenUp e s' r incomplete selected choice =>
    -- Some variable has no colour, so the lowest of these is selected.
    have hfits' : Context.Fits ⟨g, e, s'.assignment⟩ := hs ▸ hsharper.right.fits
    obtain ⟨x, hx⟩ := exists_open (p := inOrder g false) hfits' incomplete
    obtain ⟨y, hy⟩ := Context.exists_firstOpen hx
    rw [choice_eq_firstOpen hfits' selected] at choice
    cases choice.symm.trans hy
  | @branched e s' t' r x cs' m tried' found' incomplete selected choice ordered rest ih =>
    have hfits' : Context.Fits ⟨g, e, s'.assignment⟩ := hs ▸ hsharper.right.fits
    have hfirst := (choice_eq_firstOpen hfits' selected).symm.trans choice
    have hx := (Context.firstOpen_eq_some_iff.1 hfirst).1.1
    obtain rfl := eq_coloursAt_of_ordered hfits' hx ordered
    rw [hs] at incomplete hfirst
    cases hstage
    obtain ⟨w, hw, h⟩ := h.of_firstOpen hsharper.left.fits incomplete hfirst
    exact ih h (hs.trans hw.symm) (hw ▸ hsharper) (.trying (hw ▸ .of_sharper hsharper hx))
  | exhausted =>
    cases hstage with
    | trying aligned =>
      obtain rfl := List.sublist_nil.1 aligned.sublist
      cases h with
      | exhausted => exact ⟨rfl, .refl _⟩
  | skipped contradicted rest ih =>
    cases hstage with
    | trying aligned =>
      rcases aligned.eq_cons_or_not_mem with ⟨-, aligned⟩ | ⟨cs, rfl, -, aligned⟩
      · exact ih h hs hsharper (.trying aligned)
      · exact ih (h.of_contradicted (hs ▸ contradicted)) hs hsharper (.trying aligned)
  | wiped consistent attempted retracted rest ih =>
    have hback := (assignment_of_retract attempted rfl retracted).1.trans hs
    cases hstage with
    | trying aligned =>
      rcases aligned.eq_cons_or_not_mem with ⟨-, aligned⟩ | ⟨cs, rfl, hc, aligned⟩
      · obtain ⟨hfound, htried⟩ := ih h hback hsharper (.trying aligned)
        exact ⟨hfound, htried.cons _⟩
      · rcases hsharper.cases_of_consistent hs hc consistent attempted h with
          ⟨u, w, rest, -, hw, hrest, rfl⟩ | hfailed | hsucceeded
        · obtain ⟨hfound, htried⟩ := ih hrest (hback.trans hw.symm) (hw ▸ hsharper)
            (.trying (hw ▸ aligned))
          exact ⟨hfound, htried.cons_cons _⟩
        · obtain ⟨_, _, _, _, _, _, _, hnone, -⟩ := hfailed
          cases hnone
        · obtain ⟨_, _, _, _, hnone, -⟩ := hsucceeded
          cases hnone
  | failed consistent attempted below retracted rest ihbelow ih =>
    have hback :=
      (assignment_of_retract attempted (below.effect.1 rfl) retracted).1.trans hs
    cases hstage with
    | trying aligned =>
      rcases aligned.eq_cons_or_not_mem with ⟨-, aligned⟩ | ⟨cs, rfl, hc, aligned⟩
      · obtain ⟨hfound, htried⟩ := ih h hback hsharper (.trying aligned)
        exact ⟨hfound, (htried.trans (List.sublist_append_right _ _)).cons _⟩
      · rcases hsharper.cases_of_consistent hs hc consistent attempted h with
          ⟨u, w, rest, -, hw, hrest, rfl⟩ | hfailed | hsucceeded
        · obtain ⟨hfound, htried⟩ := ih hrest (hback.trans hw.symm) (hw ▸ hsharper)
            (.trying (hw ▸ aligned))
          exact ⟨hfound, (htried.trans (List.sublist_append_right _ _)).cons_cons _⟩
        · obtain ⟨_, _, u, v, w, inner, rest, hb, hsame, hchild, hinner, hw, hrest, rfl⟩ := hfailed
          obtain rfl := Option.some.inj hb
          obtain ⟨hfound, htried⟩ := ih hrest (hback.trans hw.symm) (hw ▸ hsharper)
            (.trying (hw ▸ aligned))
          exact ⟨hfound, ((ihbelow hinner hsame hchild .node).2.append htried).cons_cons _⟩
        · obtain ⟨_, _, u, inner, hb, hsame, hchild, hinner, -⟩ := hsucceeded
          obtain rfl := Option.some.inj hb
          cases (ihbelow hinner hsame hchild .node).1
  | succeeded consistent attempted below ih =>
    cases hstage with
    | trying aligned =>
      have hright : Within g root _ _ := hs ▸ hsharper.right
      obtain ⟨f, rfl, hf⟩ := hright.exists_completes_of_attempt (p := inOrder g false)
        (keepsContracts_inOrder g false) (aligned.right List.mem_cons_self) consistent attempted
        below
      rw [hs] at hf
      rcases aligned.eq_cons_or_not_mem with ⟨hnew, -⟩ | ⟨cs, rfl, hc, -⟩
      · -- The first search tries all colours of this colouring.
        exact absurd (aligned.keeps f hf List.mem_cons_self) hnew
      · rcases hsharper.cases_of_consistent hs hc consistent attempted h with
          ⟨u, w, rest, hattempt, -⟩ | hfailed | hsucceeded
        · obtain ⟨_, hnone, -⟩ :=
            (hsharper.keeps f hf).attempt (p := inOrder g true) hsharper.left.fits hattempt
          cases hnone
        · obtain ⟨_, _, u, v, w, inner, rest, hb, hsame, hchild, hinner, -⟩ := hfailed
          obtain rfl := Option.some.inj hb
          cases (ih hinner hsame hchild .node).1
        · obtain ⟨_, _, u, inner, hb, hsame, hchild, hinner, rfl, rfl⟩ := hsucceeded
          obtain rfl := Option.some.inj hb
          obtain ⟨-, htried⟩ := ih hinner hsame hchild .node
          exact ⟨rfl, htried.cons_cons _⟩

/-- A search that succeeds leaves a decision for each place, and one that fails those that it was
given. -/
theorem Explores.count_eq {s t : State σ} (h : Explores p .node store s tried found t)
    (hs : s.assignment.Coherent) :
    t.assignment.count = if found then s.assignment.colours.size else s.assignment.count := by
  cases found with
  | false => exact congrArg Assignment.count (h.effect.1 rfl)
  | true =>
    obtain ⟨hchain, hcomplete⟩ := h.effect.2 rfl
    exact (beq_iff_eq.1 hcomplete).trans (hs.of_reflTransGen hchain).2

end Search

/-! ### Solving -/

open Search

/-- What a run of the solver counts: each assignment that is tried is a node with a store of its
own, and its decision is taken back unless it is one of the solution. -/
theorem Options.Tries.counts {o : Options} {g : Graph} {k : Nat} {r : Run}
    {tried : List Assignment} (h : o.Tries g k r tried) :
    r.statistics.nodes = tried.length ∧ r.statistics.storeCopies = tried.length ∧
      r.statistics.backtracks + (if r.solution.isSome then g.size else 0) = tried.length := by
  obtain ⟨t, hexplores, hstatistics⟩ := h
  have hcount : t.assignment.count = if r.solution.isSome then g.size else 0 := by
    rw [hexplores.count_eq (Assignment.coherent_blank g.size)]
    show (if _ then (Assignment.blank g.size).colours.size else 0) = _
    rw [Assignment.blank, Table.size_filled]
  -- At the root nothing has been counted, and nothing is decided.
  have hnodes : t.statistics.nodes = 0 + tried.length := hexplores.tally.nodes
  have hcopies : t.statistics.storeCopies = 0 + tried.length := hexplores.tally.storeCopies
  have hstanding : t.statistics.nodes + 0 + 0 =
      0 + t.statistics.backtracks + t.assignment.count := hexplores.tally.standing
  rw [hstatistics, ← hcount]
  omega

/-- Before the first decision the two searches are the same. -/
theorem sharper_root {g : Graph} (hg : g.Simple) (k : Nat) :
    Sharper g (.full g.size k) (.full g.size k) (.full g.size k) (.blank g.size) := by
  have hroot : Within g (.full g.size k) (.full g.size k) (.blank g.size) := by
    refine ⟨Context.fits_full_blank hg k, Store.ascending_full _ k, fun _ ↦ List.Subset.refl _,
      Assignment.isProper_blank _ g, fun y b hy ↦ ?_⟩
    cases (Assignment.colourAt_blank _ y).symm.trans hy
  exact ⟨hroot, hroot, fun _ ↦ List.Subset.refl _, fun _ h ↦ h, fun _ h ↦ h⟩

/-- **Narrowing never costs anything in order.** Whatever is declared and whatever the palette is,
with the variables and their colours in order the solver with narrowing has no more nodes, copies no
more stores and takes no more decisions back than without it. Every assignment that it tries is also
tried without narrowing, and in the same order. -/
theorem solve_narrowing_saves (calls : List Declaration) (k : Nat) :
    ∃ on off, solve (Graph.declared calls) k ⟨.inputOrder, .inDomainOrder, true⟩ = .ok on ∧
      solve (Graph.declared calls) k ⟨.inputOrder, .inDomainOrder, false⟩ = .ok off ∧
      on.statistics.nodes ≤ off.statistics.nodes ∧
      on.statistics.storeCopies ≤ off.statistics.storeCopies ∧
      on.statistics.backtracks ≤ off.statistics.backtracks ∧
      (∃ tried, Options.Tries ⟨.inputOrder, .inDomainOrder, true⟩ (Graph.declared calls) k on
        tried) ∧
      (∃ tried, Options.Tries ⟨.inputOrder, .inDomainOrder, false⟩ (Graph.declared calls) k off
        tried) ∧
      ∀ tried tried',
        Options.Tries ⟨.inputOrder, .inDomainOrder, true⟩ (Graph.declared calls) k on tried →
        Options.Tries ⟨.inputOrder, .inDomainOrder, false⟩ (Graph.declared calls) k off tried' →
        tried.Sublist tried' := by
  have hg := Graph.simple_declared calls
  have hsharper := sharper_root hg k
  have hcoherent := Assignment.coherent_blank (Graph.declared calls).size
  obtain ⟨on, hon, -⟩ := exists_solve_eq_ok calls k ⟨.inputOrder, .inDomainOrder, true⟩
  obtain ⟨off, hoff, -⟩ := exists_solve_eq_ok calls k ⟨.inputOrder, .inDomainOrder, false⟩
  obtain ⟨tried, htried⟩ := exists_tries_of_solve hg hon
  obtain ⟨tried', htried'⟩ := exists_tries_of_solve hg hoff
  have hsublist : ∀ tried tried',
      Options.Tries ⟨.inputOrder, .inDomainOrder, true⟩ (Graph.declared calls) k on tried →
      Options.Tries ⟨.inputOrder, .inDomainOrder, false⟩ (Graph.declared calls) k off tried' →
      on.solution.isSome = off.solution.isSome ∧ tried.Sublist tried' := by
    rintro tried tried' ⟨t, ht, -⟩ ⟨t', ht', -⟩
    exact Search.Explores.sublist ht' ht rfl hsharper .node
  obtain ⟨hsame, hsub⟩ := hsublist tried tried' htried htried'
  obtain ⟨hnodes, hcopies, hundone⟩ := htried.counts
  obtain ⟨hnodes', hcopies', hundone'⟩ := htried'.counts
  rw [hsame] at hundone
  have hle := hsub.length_le
  refine ⟨on, off, hon, hoff, by omega, by omega, by omega, ⟨tried, htried⟩, ⟨tried', htried'⟩,
    fun tried tried' h h' ↦ (hsublist tried tried' h h').2⟩

end GraphSearch.Colouring
