import Lineage.Proofs.Naive.Extension
import Lineage.Proofs.Naive.Portrait

/-!
# Accounts by name

What a host hears from a hierarchy, request by request, where classes are meant by name
(`account`).  A hierarchy whose definitions are all among those of another one gives the
same account as that one, until it does not know a class that the other one has; the order
of definitions plays no part (`account_of_subset`).  The requests are first compared on
interpreters (`take_transcript`), which both hierarchies refine.
-/

set_option autoImplicit false

namespace Lineage

namespace Naive

/-! ## Requests -/

theorem agrees_release (small large : List ClassDecl) (id : InstanceNo) :
    Agrees small large (fun _ => True) (release id) (release id) := by
  have nothing : ∀ object : Object, none = some object → Defined small object.cls := nofun
  exact (agrees_objectAt id).bind fun _ _ => (agrees_put id nothing).bind fun _ _ =>
    agrees_pure trivial

theorem agrees_exactReference (small large : List ClassDecl) (id : InstanceNo) :
    Agrees small large (fun reference => Defined small reference.staticType) (exactReference id)
      (exactReference id) :=
  (agrees_objectAt id).bind fun _ defined => agrees_pure defined

/-- A reference that the answer gives has a static type that is defined. -/
def Answers (decls : List ClassDecl) (answer : Answer Reference Object) : Prop :=
  ∀ made, answer.reference? = some made → Defined decls made.staticType

section Requests
variable {small large : List ClassDecl} (extension : Extends small large) (maxCallDepth : Nat)
include extension

/-- Requests that mean references with defined static types are served alike. -/
theorem agrees_perform {made : List Reference}
    (proper : ∀ reference ∈ made, Defined small reference.staticType) {request : Request Nat}
    {meant : Request Reference} (means : request.refer? made = some meant) :
    Agrees small large (Answers small) (Machine.perform ⟨small, maxCallDepth⟩ meant)
      (Machine.perform ⟨large, maxCallDepth⟩ meant) := by
  cases request with
  | allocate cls domain =>
      cases means
      exact (agrees_allocate extension maxCallDepth cls domain).map fun _ _ => nofun
  | reference id staticType =>
      cases means
      refine (agrees_reference extension maxCallDepth id staticType).map ?_
      exact fun reference defined made same => Option.some.inj same ▸ defined
  | exactReference id =>
      cases means
      refine (agrees_exactReference small large id).map ?_
      exact fun reference defined made same => Option.some.inj same ▸ defined
  | invoke position signature args =>
      obtain ⟨reference, given, rfl⟩ := Option.map_eq_some_iff.mp means
      have defined := proper reference (List.mem_of_getElem? given)
      exact (agrees_invoke extension maxCallDepth defined signature args).map fun _ _ => nofun
  | call position method args =>
      obtain ⟨reference, given, rfl⟩ := Option.map_eq_some_iff.mp means
      have defined := proper reference (List.mem_of_getElem? given)
      exact (agrees_invoke extension maxCallDepth defined ⟨method, args.length⟩ args).map
        fun _ _ => nofun
  | read id field =>
      cases means
      exact (agrees_read extension maxCallDepth id field).map fun _ _ => nofun
  | write id field value =>
      cases means
      exact (agrees_write extension maxCallDepth id field value).map fun _ _ => nofun
  | readDeclared id declaring field =>
      cases means
      exact (agrees_readDeclared extension maxCallDepth id declaring field).map fun _ _ => nofun
  | release id =>
      cases means
      exact (agrees_release small large id).map fun _ _ => nofun

omit extension in
theorem serve_of_agrees {meant : Request Reference}
    (agrees : Agrees small large (Answers small) (Machine.perform ⟨small, maxCallDepth⟩ meant)
      (Machine.perform ⟨large, maxCallDepth⟩ meant)) {heap : Heap} (within : heap.Within small) :
    ∃ result after, Machine.serve ⟨small, maxCallDepth⟩ meant heap = (result, after) ∧
      ((∃ cause, Missing small large cause ∧ result = .error (.fault cause)) ∨
        (Machine.serve ⟨large, maxCallDepth⟩ meant heap = (result, after) ∧ after.Within small ∧
          ∀ answer, result = .ok answer → Answers small answer)) := by
  unfold Machine.serve
  have agreed := agrees heap within
  rcases ran : Run.on (Machine.perform ⟨small, maxCallDepth⟩ meant) heap with
    ⟨cause | answer, after⟩
  · refine ⟨.error (.fault cause), after, rfl, ?_⟩
    rw [ran] at agreed
    rcases agreed with ⟨_, missing, ends⟩ | ⟨same, stays, _⟩
    · cases ends
      exact .inl ⟨cause, missing, rfl⟩
    · rw [same]
      exact .inr ⟨rfl, stays, nofun⟩
  · refine ⟨.ok answer, after, rfl, ?_⟩
    rw [ran] at agreed
    rcases agreed with ⟨_, _, impossible⟩ | ⟨same, stays, answers⟩
    · cases impossible
    · rw [same]
      refine .inr ⟨rfl, stays, ?_⟩
      intro other isOther
      cases isOther
      exact answers answer rfl

/-- As long as no reply of the smaller list is that a missing class is unknown, the larger
list gives the same replies and the same heaps. -/
theorem take_transcript (made : List Reference)
    (proper : ∀ reference ∈ made, Defined small reference.staticType) (heap : Heap)
    (within : heap.Within small) (requests : List (Request Nat)) (count : Nat)
    (present : ∀ entry ∈
        (transcript (Machine.serve ⟨small, maxCallDepth⟩) made heap requests).take count,
      ∀ cause, Missing small large cause → entry.1 ≠ .error (.failed (.fault cause))) :
    (transcript (Machine.serve ⟨large, maxCallDepth⟩) made heap requests).take count =
      (transcript (Machine.serve ⟨small, maxCallDepth⟩) made heap requests).take count := by
  induction requests generalizing made heap count with
  | nil => rw [transcript, transcript]
  | cons request rest ih =>
      cases count with
      | zero => rw [List.take_zero, List.take_zero]
      | succ count =>
          cases means : request.refer? made with
          | none =>
              simp only [transcript, means, List.take_succ_cons, List.forall_mem_cons] at present ⊢
              rw [ih made proper heap within count present.2]
          | some meant =>
              obtain ⟨result, after, served, agreed⟩ := serve_of_agrees maxCallDepth
                (agrees_perform extension maxCallDepth proper means) within
              cases result with
              | error failure =>
                  simp only [transcript, means, served, List.take_succ_cons,
                    List.forall_mem_cons] at present ⊢
                  rcases agreed with ⟨cause, missing, ends⟩ | ⟨same, stays, _⟩
                  · -- The first reply that could differ is the one that is ruled out.
                    cases ends
                    exact absurd rfl (present.1 cause missing)
                  · rw [same, List.take_succ_cons, ih made proper after stays count present.2]
              | ok answer =>
                  simp only [transcript, means, served, List.take_succ_cons,
                    List.forall_mem_cons] at present ⊢
                  rcases agreed with ⟨_, _, impossible⟩ | ⟨same, stays, answers⟩
                  · cases impossible
                  · have properAll : ∀ reference ∈ made ++ answer.reference?.toList,
                        Defined small reference.staticType := by
                      intro reference member
                      rcases List.mem_append.mp member with before | now
                      · exact proper reference before
                      · exact answers answer rfl reference (Option.mem_toList.mp now)
                    rw [same, List.take_succ_cons, ih _ properAll after stays count present.2]

end Requests

end Naive

/-! ## Hierarchies -/

theorem eq_of_forall_take {α : Type} {xs ys : List α}
    (same : ∀ count, xs.take count = ys.take count) : xs = ys := by
  have whole := same (max xs.length ys.length)
  rwa [List.take_of_length_le (Nat.le_max_left _ _),
    List.take_of_length_le (Nat.le_max_right _ _)] at whole

namespace Dispatcher

open Naive

/-- The replies to requests on an empty store, each with the store after it, where all
classes are meant by name. -/
def account (dispatcher : Dispatcher) (requests : List (Request Nat)) :
    List (Reply (Answer Naive.Reference Object) × Heap) :=
  (transcript dispatcher.serve [] .empty requests).map fun entry =>
    (entry.1.map (ofAnswer dispatcher.hierarchy.classes),
      Heap.ofStore dispatcher.hierarchy.classes entry.2)

theorem account_eq {hierarchy : Hierarchy} {decls : List ClassDecl} (flat : hierarchy.Flat decls)
    (plain : hierarchy.Plain) (options : Options) (requests : List (Request Nat)) :
    account ⟨hierarchy, options⟩ requests =
      transcript (Machine.serve ⟨decls, options.maxCallDepth⟩) [] .empty requests := by
  have noReferences : ∀ reference ∈ ([] : List Reference),
      Proper hierarchy.classes reference := by
    intro reference impossible
    cases impossible
  have whole := transcript_ofStore flat plain options [] noReferences .empty
    (typed_empty hierarchy.classes) requests
  rw [ofStore_empty] at whole
  exact whole.symm

/-- A hierarchy whose definitions are all among those of another one, in whatever order
and with whatever others, and the other one tell the same about its classes, and they
answer the same to requests until the smaller one does not know a class.  If they have the
same definitions they answer the same to all requests. -/
theorem account_of_subset (tag otherTag : Nat) {decls more : List ClassDecl}
    {hierarchy extended : Hierarchy} (built : Hierarchy.build tag decls = .ok hierarchy)
    (otherBuilt : Hierarchy.build otherTag more = .ok extended) (subset : decls ⊆ more)
    (plain : ∀ decl ∈ more, ∀ method ∈ decl.methods, method.body.isExpr = true) :
    (∀ decl ∈ decls, ∃ portrait, hierarchy.portrait decl.name = .ok portrait ∧
      extended.portrait decl.name = .ok portrait) ∧
    ∀ (options : Options) (requests : List (Request Nat)),
      (∀ count,
        (∀ entry ∈ (account ⟨hierarchy, options⟩ requests).take count, ∀ name,
          entry.1 ≠ .error (.failed (.fault (.unknownClass name)))) →
        (account ⟨extended, options⟩ requests).take count =
          (account ⟨hierarchy, options⟩ requests).take count) ∧
      (decls.Perm more →
        account ⟨extended, options⟩ requests = account ⟨hierarchy, options⟩ requests) := by
  have flat := Hierarchy.flat_of_build built
  have otherFlat := Hierarchy.flat_of_build otherBuilt
  have extension := extends_of_subset flat.holds otherFlat.holds subset
  have isPlain := flat.plain_of_decls fun decl listed => plain decl (subset listed)
  have otherPlain := otherFlat.plain_of_decls plain
  constructor
  · intro decl listed
    have defined := define?_of_mem flat.holds listed
    refine ⟨_, hierarchy.portrait_eq flat defined, ?_⟩
    rw [extended.portrait_eq otherFlat (extension.define? defined),
      extension.lineage ⟨decl, defined⟩]
  intro options requests
  rw [account_eq flat isPlain, account_eq otherFlat otherPlain]
  have nothingMade : ∀ reference ∈ ([] : List Naive.Reference),
      Defined decls reference.staticType := nofun
  have alike := take_transcript extension options.maxCallDepth [] nothingMade .empty nofun requests
  constructor
  · intro count known
    refine alike count ?_
    rintro entry member _ ⟨name, rfl, _⟩
    exact known entry member name
  · intro reordered
    have nothingMissing : ∀ cause, ¬ Missing decls more cause := by
      rintro _ ⟨name, _, undefined, decl, defined⟩
      have listed := reordered.symm.subset (List.mem_of_find?_eq_some defined)
      have unnamed := List.find?_eq_none.mp undefined decl listed
      simp [name_of_define? defined] at unnamed
    refine eq_of_forall_take fun count => alike count ?_
    exact fun _ _ cause missing => absurd missing (nothingMissing cause)

/-- A class that the sample does not have. -/
def sampleTwig : ClassDecl := { name := "Twig", parent := some "Node" }

/-- The sample with twigs before leaves tells of its nodes and leaves what the sample tells,
and answers alike until a twig is allocated; with twigs behind the leaves it answers alike
throughout. -/
theorem sampleTwig_account :
    ∃ hierarchy reordered,
      Hierarchy.build 2 (sampleDecls ++ [sampleTwig]) = .ok hierarchy ∧
      Hierarchy.build 3 (sampleDecls.insertIdx 1 sampleTwig) = .ok reordered ∧
      Hierarchy.build 1 sampleDecls = .ok sampleHierarchy ∧
      (∃ portrait, sampleHierarchy.portrait "Leaf" = .ok portrait ∧
        reordered.portrait "Leaf" = .ok portrait) ∧
      (account ⟨reordered, {}⟩ [.allocate "Leaf" .managed, .allocate "Twig" .managed]).take 1 =
        (account ⟨sampleHierarchy, {}⟩
          [.allocate "Leaf" .managed, .allocate "Twig" .managed]).take 1 ∧
      account ⟨reordered, {}⟩ sampleRequests = account ⟨hierarchy, {}⟩ sampleRequests := by
  have plain : ∀ decl ∈ sampleDecls.insertIdx 1 sampleTwig, ∀ method ∈ decl.methods,
      method.body.isExpr = true := by decide
  have reorders : (sampleDecls ++ [sampleTwig]).Perm (sampleDecls.insertIdx 1 sampleTwig) :=
    .cons _ (.swap _ _ _)
  have subset : sampleDecls ⊆ sampleDecls.insertIdx 1 sampleTwig := by
    intro decl listed
    exact reorders.subset (List.mem_append_left _ listed)
  have smaller := account_of_subset 1 3 rfl rfl subset plain
  have same := account_of_subset 2 3 rfl rfl reorders.subset plain
  refine ⟨_, _, rfl, rfl, rfl, ?_, ?_, ?_⟩
  · exact smaller.1 _ (List.mem_cons_of_mem _ List.mem_cons_self)
  · refine (smaller.2 {} _).1 1 ?_
    intro entry member name
    rw [List.mem_singleton.mp member]
    nofun
  · exact (same.2 {} _).2 reorders

end Dispatcher

end Lineage
