import Mathlib.Logic.Relation
import Tablewright.Proofs.Registry.Registered

/-! Links below links. The links of all records are the edges of a graph. A record is
unfolded along every path from it, however often the paths meet, unless one of them leads into
a cycle; then there is no end to it, and this is what is found. Only the records on the way are
remembered: one that is met again on another way is unfolded again. -/

namespace Tablewright

open Check Relation

/-! ## The graph of links -/

/-- A link leads from one record to the other. -/
def Leads (links : List LinkDeclaration) (a b : String) : Prop :=
  ∃ d ∈ links, d.parent = a ∧ d.child = b

/-- Some way from a record leads into a cycle. -/
def MeetsCycle (links : List LinkDeclaration) (a : String) : Prop :=
  ∃ x, ReflTransGen (Leads links) a x ∧ TransGen (Leads links) x x

namespace Registry

variable {links : List LinkDeclaration} {a : String} {d : LinkDeclaration}

theorem mem_linksOf : d ∈ linksOf links a ↔ d ∈ links ∧ d.parent = a := by
  rw [linksOf, List.mem_filter, beq_iff_eq]

theorem mem_parents (h : d ∈ linksOf links a) : a ∈ parents links := by
  obtain ⟨hd, rfl⟩ := mem_linksOf.mp h
  exact List.mem_eraseDups.mpr (List.mem_map.mpr ⟨d, hd, rfl⟩)

theorem leads_child (h : d ∈ linksOf links a) : Leads links a d.child := by
  obtain ⟨hd, hparent⟩ := mem_linksOf.mp h
  exact ⟨d, hd, hparent, rfl⟩

/-- The way into a cycle goes through one of the record's own links. -/
theorem child_meetsCycle (h : MeetsCycle links a) :
    ∃ d ∈ linksOf links a, MeetsCycle links d.child := by
  obtain ⟨x, hreaches, hcycle⟩ := h
  have hstep : ∃ b, Leads links a b ∧ MeetsCycle links b := by
    rcases hreaches.cases_head with rfl | ⟨b, hb, hreaches⟩
    · obtain ⟨b, hb, hback⟩ := TransGen.head'_iff.mp hcycle
      exact ⟨b, hb, a, hback, hcycle⟩
    · exact ⟨b, hb, x, hreaches, hcycle⟩
  obtain ⟨b, ⟨d, hd, hparent, rfl⟩, hb⟩ := hstep
  exact ⟨d, mem_linksOf.mpr ⟨hd, hparent⟩, hb⟩

theorem not_meetsCycle_of_nil (h : linksOf links a = []) : ¬ MeetsCycle links a := by
  intro hmeets
  obtain ⟨d, hd, -⟩ := child_meetsCycle hmeets
  rw [h] at hd
  cases hd

/-- The link at the end of a path of positions, each among the links of the record before. -/
def declaredAt (links : List LinkDeclaration) : String → List Nat → Option LinkDeclaration
  | _, [] => none
  | a, [i] => (linksOf links a)[i]?
  | a, i :: path => (linksOf links a)[i]?.bind fun d => declaredAt links d.child path

end Registry

namespace Records

open Registry

variable {told next : Records}

/-- A tree is the link of a declaration, and below it are all links of the child, in the order
of declaration, each with those below it in turn. -/
inductive Unfolds (told : Records) : LinkDeclaration → LinkTree → Prop
  | node {d : LinkDeclaration} {p c : Mapping} {l : Link} {below : List LinkTree} :
      told.mapping d.parent = .ok p → told.mapping d.child = .ok c →
      ended (Link.build d p c) = .ok l →
      List.Forall₂ (Unfolds told) (linksOf told.links d.child) below →
      Unfolds told d (.node l below)

theorem rel_getElem {α β : Type} {R : α → β → Prop} {as : List α} {bs : List β}
    (h : List.Forall₂ R as bs) (i : Nat) : Option.Rel R as[i]? bs[i]? := by
  induction h generalizing i with
  | nil => exact .none
  | cons hab _ ih =>
    cases i with
    | zero => exact .some hab
    | succ i => exact ih i

/-- Along a path of positions there is a tree just if links are declared along it, and it is the
tree of the last of them. -/
theorem unfolds_at {a : String} {ts : List LinkTree}
    (h : List.Forall₂ told.Unfolds (linksOf told.links a) ts) (path : List Nat) :
    Option.Rel told.Unfolds (declaredAt told.links a path) (LinkTree.at? ts path) := by
  induction path generalizing a ts with
  | nil => exact .none
  | cons i path ih =>
    have hhere := rel_getElem h i
    cases path with
    | nil => exact hhere
    | cons j path =>
      simp only [declaredAt, LinkTree.at?]
      revert hhere
      generalize (linksOf told.links a)[i]? = d
      generalize ts[i]? = t
      intro hhere
      cases hhere with
      | none => exact .none
      | some hd =>
        cases hd with
        | node _ _ _ hbelow => exact ih hbelow

/-! ## Unfolding -/

/-- A traversal comes through or ends with the failure of one of its steps. -/
theorem mapM_cases {α β : Type} {f : α → Except Failure β} {P : α → β → Prop} {Q : Failure → Prop}
    {l : List α} (h : ∀ a ∈ l, (∃ b, f a = .ok b ∧ P a b) ∨ ∃ e, f a = .error e ∧ Q e) :
    (∃ bs, l.mapM f = .ok bs ∧ List.Forall₂ P l bs) ∨ ∃ e, l.mapM f = .error e ∧ Q e := by
  induction l with
  | nil => exact .inl ⟨[], rfl, .nil⟩
  | cons a l ih =>
    obtain ⟨ha, hl⟩ := List.forall_mem_cons.mp h
    rw [List.mapM_cons]
    rcases ha with ⟨b, hb, hP⟩ | ⟨e, he, hQ⟩
    · rw [hb]
      rcases ih hl with ⟨bs, hbs, hPs⟩ | ⟨e, he, hQ⟩
      · exact .inl ⟨b :: bs, by rw [hbs]; rfl, .cons hP hPs⟩
      · exact .inr ⟨e, by rw [he]; rfl, hQ⟩
    · exact .inr ⟨e, by rw [he]; rfl, hQ⟩

/-- Both records of every link have mappings, and the link can be built between them. -/
def LinksBuild (told : Records) : Prop :=
  ∀ d ∈ told.links, ∃ p c l, told.mapping d.parent = .ok p ∧ told.mapping d.child = .ok c ∧
    ended (Link.build d p c) = .ok l

/-- What cannot be unfolded from a record is on a cycle that can be reached from there. -/
def EndsInCycle (told : Records) (a : String) (e : Failure) : Prop :=
  ∃ x, e = .badLink (.cycle x) ∧ ReflTransGen (Leads told.links) a x ∧
    TransGen (Leads told.links) x x

theorem EndsInCycle.head {a b : String} {e : Failure} (hab : Leads told.links a b)
    (h : told.EndsInCycle b e) : told.EndsInCycle a e := by
  obtain ⟨x, he, hreaches, hcycle⟩ := h
  exact ⟨x, he, .head hab hreaches, hcycle⟩

/-- One link with the links below it. -/
def tree (told : Records) (remaining : List String) (d : LinkDeclaration) :
    Except Failure LinkTree := do
  let p ← told.mapping d.parent
  let c ← told.mapping d.child
  let below ← told.trees remaining d.child
  return .node (← ended (Link.build d p c)) below

/-- All links of a record come through without a cycle ahead, or one of them ends in one. -/
def Settles (told : Records) (a : String) (r : Except Failure (List LinkTree)) : Prop :=
  (∃ ts, r = .ok ts ∧ List.Forall₂ told.Unfolds (linksOf told.links a) ts ∧
    ¬ MeetsCycle told.links a) ∨ ∃ e, r = .error e ∧ told.EndsInCycle a e

theorem tree_cases (hb : told.LinksBuild) {remaining : List String} {d : LinkDeclaration}
    (hd : d ∈ told.links) (h : told.Settles d.child (told.trees remaining d.child)) :
    (∃ t, told.tree remaining d = .ok t ∧ ¬ MeetsCycle told.links d.child ∧ told.Unfolds d t) ∨
      ∃ e, told.tree remaining d = .error e ∧ told.EndsInCycle d.child e := by
  obtain ⟨p, c, l, hp, hc, hl⟩ := hb d hd
  rcases h with ⟨ts, hts, hbelow, hnone⟩ | ⟨e, he, hcycle⟩
  · refine .inl ⟨.node l ts, ?_, hnone, .node hp hc hl hbelow⟩
    simp only [tree, hp, hc, hts, hl, bind, Except.bind]
    rfl
  · refine .inr ⟨e, ?_, hcycle⟩
    simp only [tree, hp, hc, he, bind, Except.bind]

/-- Unfolding settles. All records that are not to be unfolded any more led to the one that is. -/
theorem settles_trees (hb : told.LinksBuild) (remaining : List String) (parent : String)
    (hpassed : ∀ x ∈ parents told.links, x ∉ remaining → TransGen (Leads told.links) x parent) :
    told.Settles parent (told.trees remaining parent) := by
  induction remaining, parent using Records.trees.induct told with
  | case1 remaining parent hempty =>
    have hnil := List.isEmpty_iff.mp hempty
    rw [trees, if_pos hempty]
    exact .inl ⟨[], rfl, by rw [hnil]; exact .nil, not_meetsCycle_of_nil hnil⟩
  | case2 remaining parent hsome hmem ih =>
    have hpassed' {d : LinkDeclaration} (hd : d ∈ linksOf told.links parent) :
        ∀ x ∈ parents told.links, x ∉ remaining.erase parent →
          TransGen (Leads told.links) x d.child := fun x hx hgone => by
      by_cases hparent : x = parent
      · exact hparent ▸ .single (leads_child hd)
      · have hled := hpassed x hx fun hmem => hgone ((List.mem_erase_of_ne hparent).mpr hmem)
        exact hled.tail (leads_child hd)
    have htrees : told.trees remaining parent =
        (linksOf told.links parent).mapM (told.tree (remaining.erase parent)) := by
      rw [trees, if_neg hsome, dif_pos hmem]
      rfl
    have hsteps : ∀ d ∈ linksOf told.links parent,
        (∃ t, told.tree (remaining.erase parent) d = .ok t ∧
          ¬ MeetsCycle told.links d.child ∧ told.Unfolds d t) ∨
        ∃ e, told.tree (remaining.erase parent) d = .error e ∧ told.EndsInCycle parent e := by
      intro d hd
      rcases tree_cases hb (mem_linksOf.mp hd).1 (ih d (hpassed' hd)) with hcomes | hfails
      · exact .inl hcomes
      · obtain ⟨e, he, hcycle⟩ := hfails
        exact .inr ⟨e, he, hcycle.head (leads_child hd)⟩
    rw [htrees]
    rcases mapM_cases hsteps with ⟨ts, hts, hall⟩ | hfails
    · obtain ⟨hnone, hunfolds⟩ := (List.forall₂_and_left ..).mp hall
      refine .inl ⟨ts, hts, hunfolds, fun hmeets => ?_⟩
      obtain ⟨d, hd, hmeets⟩ := child_meetsCycle hmeets
      exact hnone d hd hmeets
    · exact .inr hfails
  | case3 remaining parent hsome hmem =>
    rw [trees, if_neg hsome, dif_neg hmem]
    obtain ⟨d, hd⟩ := List.exists_mem_of_ne_nil _ fun hnil => hsome (List.isEmpty_iff.mpr hnil)
    exact .inr ⟨_, rfl, parent, rfl, .refl, hpassed parent (mem_parents hd) hmem⟩

theorem linksBuild (h : told.Standing) (hm : told.Mapped) (hc : told.HasClock)
    (hpaired : ∀ d ∈ told.links, d.parentFields.length = d.childFields.length)
    (hresolve : ∀ d ∈ told.links, ∀ p ∈ Entries.get? d.parent told.schemas,
      ∀ c ∈ Entries.get? d.child told.schemas, d.Resolves p c) : told.LinksBuild := by
  intro d hd
  obtain ⟨s, hs⟩ := h.parents d hd
  obtain ⟨t, ht⟩ := h.children d hd
  obtain ⟨p, hp, rfl⟩ := h.exists_mapping hm hc hs
  obtain ⟨c, hc, rfl⟩ := h.exists_mapping hm hc ht
  obtain ⟨l, hl⟩ := Link.exists_build (hpaired d hd)
    (hresolve d hd _ (schema_eq_ok.mp hs) _ (schema_eq_ok.mp ht))
  exact ⟨p, c, l, hp, hc, hl⟩

/-- A record of which all links come through. -/
structure UnfoldsFrom (told : Records) (name : String) (lr : LinkedRecord) : Prop where
  mapping : told.mapping name = .ok lr.mapping
  links : List.Forall₂ told.Unfolds (linksOf told.links name) lr.links

theorem linkedRecord_cases (hb : told.LinksBuild) {name : String} {m : Mapping}
    (hm : told.mapping name = .ok m) :
    (∃ lr, told.linkedRecord name = .ok lr ∧ told.UnfoldsFrom name lr ∧
      ¬ MeetsCycle told.links name) ∨
    ∃ e, told.linkedRecord name = .error e ∧ told.EndsInCycle name e := by
  have hsettles := settles_trees hb (parents told.links) name fun x hx hgone => absurd hx hgone
  rcases hsettles with ⟨ts, hts, hunfolds, hnone⟩ | ⟨e, he, hcycle⟩
  · refine .inl ⟨⟨m, ts⟩, ?_, ⟨hm, hunfolds⟩, hnone⟩
    simp only [linkedRecord, hm, hts, bind, Except.bind]
    rfl
  · refine .inr ⟨e, ?_, hcycle⟩
    simp only [linkedRecord, hm, he, bind, Except.bind]

end Records

namespace Registry

/-- The registry is what some actions made of one that was told nothing. -/
def Reached (r : Registry) : Prop :=
  ∃ settings nullAsZero clock j as, (opened settings nullAsZero clock).after j as = r

theorem Reached.coherent {r : Registry} (h : r.Reached) : r.Coherent := by
  obtain ⟨settings, nullAsZero, clock, j, as, rfl⟩ := h
  exact (outcomes_eq (coherent_opened settings nullAsZero clock) j as).2.2

theorem Reached.standing {r : Registry} (h : r.Reached) : r.records.Standing := by
  obtain ⟨settings, nullAsZero, clock, j, as, rfl⟩ := h
  rw [(outcomes_eq (coherent_opened settings nullAsZero clock) j as).2.1]
  refine Records.Standing.after ⟨?_, ?_, ?_⟩ as
  · intro name s hs
    cases hs
  · intro d hd
    cases hd
  · intro d hd
    cases hd

theorem schema_of_name {r : Registry} {name : String} (h : name ∈ r.names) :
    ∃ s, r.records.schema name = .ok s := by
  obtain ⟨e, he, rfl⟩ := List.mem_map.mp h
  have hfound : (r.schemas.find? (·.1 == e.1)).isSome = true :=
    List.find?_isSome.mpr ⟨e, he, beq_self_eq_true e.1⟩
  obtain ⟨found, hfound⟩ := Option.isSome_iff_exists.mp hfound
  exact ⟨found.2, Records.schema_eq_ok.mpr (congrArg (Option.map Prod.snd) hfound)⟩

/-- What asking for a linked record ends with. -/
def answer (r : Registry) (name : String) (j : Journal) : Except Failure LinkedRecord :=
  (runOn (linkedRecord name) r j).1.1

theorem answer_eq {r : Registry} (hr : r.Reached) (name : String) (j : Journal) :
    r.answer name j = r.records.linkedRecord name := by
  obtain ⟨r', k, hrun, -⟩ := rebuilds_linkedRecord name r j hr.coherent rfl
  rw [answer, hrun]

/-- The fields that links name are found in the records that are registered now. -/
def NamesResolve (r : Registry) : Prop :=
  ∀ d ∈ r.links, ∀ p ∈ Entries.get? d.parent r.schemas, ∀ c ∈ Entries.get? d.child r.schemas,
    d.Resolves p c

instance (r : Registry) : Decidable r.NamesResolve :=
  inferInstanceAs (Decidable (∀ d ∈ r.links, _))

/-- A linked record comes out unless a cycle of links can be reached from it, which is then what
the failure is about; and what comes out are all links from there on, each as often as there are
ways to it. -/
theorem linkedRecord_unfolds {r : Registry} (hr : r.Reached) (hmapped : r.records.Mapped)
    (hclock : r.records.HasClock) (hresolve : r.NamesResolve)
    (hpaired : ∀ d ∈ r.links, d.parentFields.length = d.childFields.length) {name : String}
    (hname : name ∈ r.names) (j : Journal) :
    ((∃ fault, r.answer name j = .error (.badLink fault)) ↔ MeetsCycle r.links name) ∧
    (∀ e, r.answer name j = .error e → r.records.EndsInCycle name e) ∧
    (¬ MeetsCycle r.links name → ∃ lr, r.answer name j = .ok lr ∧ r.records.UnfoldsFrom name lr ∧
      ∀ path, Option.Rel r.records.Unfolds (declaredAt r.links name path)
        (LinkTree.at? lr.links path)) := by
  rw [answer_eq hr name j]
  have hstanding := hr.standing
  obtain ⟨s, hs⟩ := schema_of_name hname
  obtain ⟨m, hm, -⟩ := hstanding.exists_mapping hmapped hclock hs
  have hbuild := Records.linksBuild hstanding hmapped hclock hpaired hresolve
  rcases Records.linkedRecord_cases hbuild hm with ⟨lr, hlr, hunfolds, hnone⟩ | ⟨e, he, hcycle⟩
  · rw [hlr]
    refine ⟨⟨fun ⟨_, hfails⟩ => (nomatch hfails), fun hmeets => absurd hmeets hnone⟩, ?_, ?_⟩
    · intro e he
      cases he
    · intro _
      exact ⟨lr, rfl, hunfolds, Records.unfolds_at hunfolds.links⟩
  · rw [he]
    obtain ⟨x, hx, hreaches, hloop⟩ := hcycle
    have hmeets : MeetsCycle r.links name := ⟨x, hreaches, hloop⟩
    refine ⟨⟨fun _ => hmeets, fun _ => ⟨_, congrArg _ hx⟩⟩, ?_, fun hnone => absurd hmeets hnone⟩
    intro e' he'
    cases he'
    exact ⟨x, hx, hreaches, hloop⟩

/-! ## Deliveries that are reached on two ways -/

/-- A record with its key and nothing else. -/
def keyOnly (name : String) : RecordDeclaration where
  name := name
  nameInDb := some name
  useTimestampCheck := false
  operations := []
  fields := [RecordSchema.invoiceColumn "id" "id" .integer .primaryKey]

/-- The rows of a child have the key of the parent's row. -/
def keyLink (parent child : String) : LinkDeclaration where
  name := child
  parent := parent
  child := child
  parentFields := ["id"]
  childFields := ["id"]
  isMultiRow := true
  minRows := 0
  maxRows := 0
  errorMessageId := none

/-- An order and its delivery both have items; an item may contain itself. -/
def shop : Registry := (opened {} none none).after {}
  [.declare (keyOnly "order"), .declare (keyOnly "delivery"), .declare (keyOnly "item"),
    .declare (keyOnly "part"), .link (keyLink "order" "delivery"), .link (keyLink "order" "item"),
    .link (keyLink "delivery" "item"), .link (keyLink "part" "part")]

theorem shop_reached : shop.Reached := ⟨{}, none, none, {}, _, rfl⟩

theorem linkedRecord_unfolds_shop :
    shop.records.Mapped ∧ shop.records.HasClock ∧ shop.NamesResolve ∧
    (∀ d ∈ shop.links, d.parentFields.length = d.childFields.length) ∧
    (∃ lr, shop.answer "order" {} = .ok lr ∧
      Option.Rel shop.records.Unfolds (some (keyLink "delivery" "item"))
        (LinkTree.at? lr.links [0, 0]) ∧
      Option.Rel shop.records.Unfolds (some (keyLink "order" "item"))
        (LinkTree.at? lr.links [1])) ∧
    ∃ fault, shop.answer "part" {} = .error (.badLink fault) := by
  have hmapped : shop.records.Mapped := by decide +kernel
  have hclock : shop.records.HasClock := by decide +kernel
  have hresolve : shop.NamesResolve := by decide +kernel
  have hpaired : ∀ d ∈ shop.links, d.parentFields.length = d.childFields.length := by
    decide +kernel
  have hunfolds {name : String} (hname : name ∈ shop.names) :=
    linkedRecord_unfolds shop_reached hmapped hclock hresolve hpaired hname {}
  refine ⟨hmapped, hclock, hresolve, hpaired, ?_, ?_⟩
  · obtain ⟨hcycle, -, hcomes⟩ := hunfolds (show "order" ∈ shop.names by decide +kernel)
    have hok : (shop.answer "order" {}).toOption.isSome = true := by decide +kernel
    have hnone : ¬ MeetsCycle shop.links "order" := fun hmeets => by
      obtain ⟨fault, hfails⟩ := hcycle.mpr hmeets
      rw [hfails] at hok
      cases hok
    obtain ⟨lr, hlr, -, hpaths⟩ := hcomes hnone
    have hdelivered : declaredAt shop.links "order" [0, 0] = some (keyLink "delivery" "item") := by
      decide +kernel
    have hordered : declaredAt shop.links "order" [1] = some (keyLink "order" "item") := by
      decide +kernel
    exact ⟨lr, hlr, hdelivered ▸ hpaths [0, 0], hordered ▸ hpaths [1]⟩
  · obtain ⟨hcycle, -⟩ := hunfolds (show "part" ∈ shop.names by decide +kernel)
    have hself : Leads shop.links "part" "part" :=
      ⟨keyLink "part" "part", by decide +kernel, rfl, rfl⟩
    exact hcycle.mpr ⟨"part", .refl, .single hself⟩

/-- An order and its lines, which are linked by a field of the order to none of the line. -/
def unevenShop : Registry := (opened {} none none).after {}
  [.declare (keyOnly "order"), .declare (keyOnly "line"),
    .link { keyLink "order" "line" with childFields := [] }]

/-- Orders alone, where the treatment of nulls is fixed and the expression for stamps is empty. -/
def stamplessShop : Registry := (opened {} (some true) (some "")).after {}
  [.declare (keyOnly "order")]

/-- Without a cycle, too, a link fails whose lists of fields are of different lengths; and nothing
can be mapped where stamps are left to settings that were not loaded. -/
theorem fails_without_cycle :
    (unevenShop.Reached ∧ unevenShop.records.Mapped ∧ unevenShop.NamesResolve ∧
      "order" ∈ unevenShop.names ∧ ¬ MeetsCycle unevenShop.links "order" ∧
      unevenShop.answer "order" {} = .error (.badLink (.unpaired "line" 1 0))) ∧
    (stamplessShop.Reached ∧ stamplessShop.records.Mapped ∧ stamplessShop.NamesResolve ∧
      "order" ∈ stamplessShop.names ∧ ¬ MeetsCycle stamplessShop.links "order" ∧
      stamplessShop.answer "order" {} = .error .noSettings) := by
  have huneven : ¬ MeetsCycle unevenShop.links "order" := by
    intro hmeets
    obtain ⟨d, hd, hmeets⟩ := child_meetsCycle hmeets
    have hlink : linksOf unevenShop.links "order" =
        [{ keyLink "order" "line" with childFields := [] }] := by decide +kernel
    rw [hlink, List.mem_singleton] at hd
    subst hd
    exact not_meetsCycle_of_nil (by decide +kernel) hmeets
  have hstampless : ¬ MeetsCycle stamplessShop.links "order" :=
    not_meetsCycle_of_nil (by decide +kernel)
  refine ⟨⟨⟨{}, none, none, {}, _, rfl⟩, by decide +kernel, by decide +kernel, by decide +kernel,
    huneven, ?_⟩, ⟨{}, some true, some "", {}, _, rfl⟩, by decide +kernel, by decide +kernel,
    by decide +kernel, hstampless, ?_⟩
  · with_unfolding_all rfl
  · with_unfolding_all rfl

end Registry

end Tablewright
