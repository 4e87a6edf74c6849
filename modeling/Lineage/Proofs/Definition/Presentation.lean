import Mathlib.Data.List.Basic
import Mathlib.Logic.Relation
import Lineage.Proofs.Definition.Reading
import Lineage.Proofs.Session.Change

/-!
# Presentations of definitions

One definition can be written in several ways: the keys of a record in another order, with
keys that are not known, with or without the parts that may be left out, or as an array, and
a variant that carries nothing as its name or as an object.  `Restyle` lists these ways for
one node, and a document may be restyled at any number of nodes at any depth (`Recast`).
-/

set_option autoImplicit false

namespace Lineage

/-- Two ways to write the same node of a shape. -/
inductive Restyle (shape : Shape) : Json → Json → Prop where
  | permute {parts : List Part} {members others : List (String × Json)}
      (rule : shape.rule = .record parts) (order : members.Perm others) :
      Restyle shape (.obj members) (.obj others)
  | unknown {parts : List Part} (rule : shape.rule = .record parts) {key : String}
      (isUnknown : ∀ part ∈ parts, part.name ≠ key) (node : Json)
      (before after : List (String × Json)) :
      Restyle shape (.obj (before ++ (key, node) :: after)) (.obj (before ++ after))
  | absent {parts : List Part} (rule : shape.rule = .record parts) {part : Part}
      (known : part ∈ parts) {node : Json} (isAbsent : part.absent = some node)
      {before after : List (String × Json)}
      (onlyHere : part.name ∉ (before ++ after).map Prod.fst) :
      Restyle shape (.obj (before ++ (part.name, node) :: after)) (.obj (before ++ after))
  | array {parts : List Part} (rule : shape.rule = .record parts) {items : List Json}
      (fits : items.length ≤ parts.length) :
      Restyle shape (.obj ((parts.map (·.name)).zip items)) (.arr items)
  | bare {orNull : Bool} {names : List String} {carrying : List (String × Shape)}
      (rule : shape.rule = .choice orNull names carrying) {name : String} (known : name ∈ names) :
      Restyle shape (.str name) (.obj [(name, .null)])

/-- One node of a document is restyled. -/
inductive Recast (outer : Shape) : Json → Json → Prop where
  | within {inner : Shape} {plug : Json → Json} {node other : Json}
      (context : Context outer inner plug) (restyle : Restyle inner node other) :
      Recast outer (plug node) (plug other)

/-! ## One node -/

theorem lookup_of_ne {key other : String} (differs : key ≠ other) (node : Json)
    (before after : List (String × Json)) :
    (before ++ (key, node) :: after).lookup other = (before ++ after).lookup other := by
  have isOther : (other == key) = false := beq_eq_false_iff_ne.mpr (Ne.symm differs)
  rw [List.lookup_append, List.lookup_append, List.lookup_cons, isOther]

theorem count_of_ne {key other : String} (differs : key ≠ other) (node : Json)
    (before after : List (String × Json)) :
    ((before ++ (key, node) :: after).map Prod.fst).count other =
      ((before ++ after).map Prod.fst).count other := by
  simp [List.count_append, List.count_cons_of_ne differs]

theorem count_of_eq (key : String) (node : Json) (before after : List (String × Json)) :
    ((before ++ (key, node) :: after).map Prod.fst).count key =
      ((before ++ after).map Prod.fst).count key + 1 := by
  simp only [List.map_append, List.map_cons, List.count_append, List.count_cons_self]
  omega

theorem map_fst_zip_sublist (keys : List String) (items : List Json) :
    ((keys.zip items).map Prod.fst).Sublist keys := by
  induction keys generalizing items with
  | nil => exact List.nil_sublist []
  | cons key rest ih =>
      cases items with
      | nil => exact List.nil_sublist _
      | cons item items => exact (ih items).cons_cons key

theorem assemble_congr {α : Type} {parts : List Part} {given other : String → Option Json}
    (same : ∀ part ∈ parts, part.read given = part.read other) (build : Builder α parts) :
    assemble given parts build = assemble other parts build := by
  induction parts with
  | nil => rfl
  | cons part rest ih =>
      rw [List.forall_mem_cons] at same
      rw [assemble, assemble, same.1]
      exact Option.bind_congr fun value _ => ih same.2 (build value)

section Record
variable {α : Type} {decode : Json → Option α} {parts : List Part}
  (governed : (Rule.record parts).Governs decode)
include governed

/-- Two objects that have the known keys alike and give the same for each. -/
theorem decode_object_congr {members others : List (String × Json)}
    (counts : ∀ part ∈ parts, (members.map Prod.fst).count part.name ≤ 1 ↔
      (others.map Prod.fst).count part.name ≤ 1)
    (same : ∀ part ∈ parts, (members.map Prod.fst).count part.name ≤ 1 →
      (part.read fun key => members.lookup key) = part.read fun key => others.lookup key) :
    decode (.obj members) = decode (.obj others) := by
  obtain ⟨_, _, build, reads⟩ := governed
  rw [reads, reads, Json.under?_obj, Json.under?_obj]
  by_cases once : ∀ part ∈ parts, (members.map Prod.fst).count part.name ≤ 1
  · have othersOnce : ∀ part ∈ parts, (others.map Prod.fst).count part.name ≤ 1 :=
      fun part known => (counts part known).mp (once part known)
    rw [if_pos once, if_pos othersOnce, Option.bind_some, Option.bind_some]
    exact assemble_congr (fun part known => same part known (once part known)) build
  · have othersTwice : ¬ ∀ part ∈ parts, (others.map Prod.fst).count part.name ≤ 1 :=
      fun all => once fun part known => (counts part known).mpr (all part known)
    rw [if_neg once, if_neg othersTwice]

theorem decode_array_congr {items others : List Json} (sameLength : items.length = others.length)
    (same : ∀ (index : Nat) part, parts[index]? = some part →
      (items[index]?.or part.absent).bind part.shape.decode =
        (others[index]?.or part.absent).bind part.shape.decode) :
    decode (.arr items) = decode (.arr others) := by
  obtain ⟨distinct, _, build, reads⟩ := governed
  rw [reads, reads, Json.under?_arr, Json.under?_arr, sameLength]
  split
  · refine assemble_congr (fun part known => ?_) build
    obtain ⟨index, isPart⟩ := List.mem_iff_getElem?.mp known
    have named : (parts.map (·.name))[index]? = some part.name := by
      rw [List.getElem?_map, isPart, Option.map_some]
    rw [Part.read, Part.read, AssocMap.lookup_zip distinct index named,
      AssocMap.lookup_zip distinct index named]
    exact same index part isPart
  · rfl

/-- A record has no two parts of one name. -/
theorem part_eq_of_name {part other : Part} (known : part ∈ parts) (otherKnown : other ∈ parts)
    (sameName : part.name = other.name) : part = other :=
  List.inj_on_of_nodup_map governed.1 known otherKnown sameName

theorem decode_permute {members others : List (String × Json)} (order : members.Perm others) :
    decode (.obj members) = decode (.obj others) := by
  have counts (key : String) : (members.map Prod.fst).count key = (others.map Prod.fst).count key :=
    (order.map Prod.fst).count_eq key
  refine decode_object_congr governed (fun part _ => by rw [counts]) fun part _ once => ?_
  have sameNode : members.lookup part.name = others.lookup part.name := by
    refine Option.ext fun node => ?_
    rw [lookup_eq_some_iff_mem once, lookup_eq_some_iff_mem (counts part.name ▸ once),
      order.mem_iff]
  rw [Part.read, Part.read, sameNode]

theorem decode_unknown {key : String} (isUnknown : ∀ part ∈ parts, part.name ≠ key) (node : Json)
    (before after : List (String × Json)) :
    decode (.obj (before ++ (key, node) :: after)) = decode (.obj (before ++ after)) := by
  refine decode_object_congr governed (fun part known => ?_) fun part known _ => ?_
  · rw [count_of_ne (isUnknown part known).symm]
  · rw [Part.read, Part.read, lookup_of_ne (isUnknown part known).symm]

theorem decode_absent {part : Part} (known : part ∈ parts) {node : Json}
    (isAbsent : part.absent = some node) {before after : List (String × Json)}
    (onlyHere : part.name ∉ (before ++ after).map Prod.fst) :
    decode (.obj (before ++ (part.name, node) :: after)) = decode (.obj (before ++ after)) := by
  have notThere := List.count_eq_zero.mpr onlyHere
  refine decode_object_congr governed (fun other otherKnown => ?_) fun other otherKnown _ => ?_
  · by_cases isOther : part.name = other.name
    · rw [← isOther, count_of_eq, notThere]
      simp
    · rw [count_of_ne isOther]
  · by_cases isOther : part.name = other.name
    · cases part_eq_of_name governed known otherKnown isOther
      have nothing := lookup_eq_none_iff_notMem.mpr onlyHere
      rw [List.lookup_append, Option.or_eq_none_iff] at nothing
      rw [Part.read, Part.read, List.lookup_append, List.lookup_append, nothing.1, nothing.2,
        isAbsent]
      simp
    · rw [Part.read, Part.read, lookup_of_ne isOther]

theorem decode_array {items : List Json} (fits : items.length ≤ parts.length) :
    decode (.obj ((parts.map (·.name)).zip items)) = decode (.arr items) := by
  obtain ⟨distinct, _, build, reads⟩ := governed
  have once : ∀ part ∈ parts,
      (((parts.map (·.name)).zip items).map Prod.fst).count part.name ≤ 1 := by
    intro part _
    have keys := map_fst_zip_sublist (parts.map (·.name)) items
    exact List.nodup_iff_count_le_one.mp (distinct.sublist keys) part.name
  rw [reads, reads, Json.under?_obj, Json.under?_arr, if_pos once, if_pos fits]

end Record

theorem Restyle.decode_eq {shape : Shape} {node other : Json} (restyle : Restyle shape node other) :
    shape.decode node = shape.decode other := by
  cases restyle with
  | permute rule order => exact decode_permute (governs_of_rule rule) order
  | unknown rule isUnknown node before after =>
      exact decode_unknown (governs_of_rule rule) isUnknown node before after
  | absent rule known isAbsent onlyHere =>
      exact decode_absent (governs_of_rule rule) known isAbsent onlyHere
  | array rule fits => exact decode_array (governs_of_rule rule) fits
  | bare rule known => exact ((governs_of_rule rule).alone _ known).symm

/-! ## The node above -/

section Above
variable {α : Type} {decode : Json → Option α} {parts : List Part} {part : Part}
  {node other : Json} (governed : (Rule.record parts).Governs decode)
  (same : part.shape.decode node = part.shape.decode other)
include governed same

theorem decode_member (known : part ∈ parts) (before after : List (String × Json)) :
    decode (.obj (before ++ (part.name, node) :: after)) =
      decode (.obj (before ++ (part.name, other) :: after)) := by
  refine decode_object_congr governed (fun _ _ => by simp) fun next nextKnown _ => ?_
  by_cases isHere : part.name = next.name
  · cases part_eq_of_name governed known nextKnown isHere
    simp only [Part.read, List.lookup_append, List.lookup_cons_self]
    cases before.lookup part.name with
    | none => exact same
    | some earlier => rfl
  · rw [Part.read, Part.read, lookup_of_ne isHere, lookup_of_ne isHere]

theorem decode_element {before : List Json} (known : parts[before.length]? = some part)
    (after : List Json) :
    decode (.arr (before ++ node :: after)) = decode (.arr (before ++ other :: after)) := by
  refine decode_array_congr governed (by simp) fun index next isNext => ?_
  by_cases isHere : index = before.length
  · subst isHere
    cases known.symm.trans isNext
    simpa using same
  · have elsewhere : (before ++ node :: after)[index]? = (before ++ other :: after)[index]? := by
      rw [List.getElem?_append, List.getElem?_append]
      split
      · rfl
      · have later : index - before.length ≠ 0 := by omega
        obtain ⟨rest, isRest⟩ := Nat.exists_eq_succ_of_ne_zero later
        rw [isRest, List.getElem?_cons_succ, List.getElem?_cons_succ]
    rw [elsewhere]

end Above

theorem mapM_congr_at {α : Type} {decode : Json → Option α} {node other : Json}
    (same : decode node = decode other) (before after : List Json) :
    (before ++ node :: after).mapM decode = (before ++ other :: after).mapM decode := by
  rw [List.mapM_append, List.mapM_append, List.mapM_cons, List.mapM_cons, same]

/-- A node may be replaced by one that is read as the same. -/
theorem Opening.decode_congr {outer inner : Shape} {plug : Json → Json}
    (opening : Opening outer inner plug) {node other : Json}
    (same : inner.decode node = inner.decode other) :
    outer.decode (plug node) = outer.decode (plug other) := by
  cases opening with
  | item rule before after =>
      obtain ⟨build, reads⟩ := governs_of_rule rule
      rw [reads, reads, Json.listOf, Json.listOf, mapM_congr_at same]
  | member rule known before after =>
      exact decode_member (governs_of_rule rule) same known before after
  | element rule before after known =>
      exact decode_element (governs_of_rule rule) same known after
  | payload rule known =>
      obtain ⟨build, reads⟩ := (governs_of_rule rule).carried _ _ known
      rw [reads, reads, same]

theorem Context.decode_congr {outer inner : Shape} {plug : Json → Json}
    (context : Context outer inner plug) {node other : Json}
    (same : inner.decode node = inner.decode other) :
    outer.decode (plug node) = outer.decode (plug other) := by
  induction context generalizing node other with
  | here => exact same
  | within surrounding opening ih => exact ih (opening.decode_congr same)

theorem Recast.decode_eq {shape : Shape} {json other : Json} (recast : Recast shape json other) :
    shape.decode json = shape.decode other := by
  cases recast with
  | within context restyle => exact context.decode_congr restyle.decode_eq

/-- Any number of nodes may be restyled, there and back. -/
theorem decode_eq_of_recasts {shape : Shape} {json other : Json}
    (recasts : Relation.EqvGen (Recast shape) json other) :
    shape.decode json = shape.decode other := by
  induction recasts with
  | rel json other recast => exact recast.decode_eq
  | refl json => rfl
  | symm json other _ ih => exact ih.symm
  | trans json middle other _ _ first second => exact first.trans second

/-! ## Sessions -/

/-- What a host hands in, with definitions and options as documents. -/
inductive Errand where
  | build (document : Json)
  | define (table : Handle) (document : Json)
  | attach (table store : Handle) (document : Json)
  | other (command : Command)

def Errand.command? : Errand → Option Command
  | .build document => (Json.listOf ClassDecl.decode document).map .build
  | .define table document => (ClassDecl.decode document).map (.define table)
  | .attach table store document => (Options.decode document).map (.attach table store)
  | .other command => some command

/-- The same errand with documents that may be presented in another way. -/
inductive Errand.Recasts : Errand → Errand → Prop where
  | build {document another : Json}
      (recasts : Relation.EqvGen (Recast .classes) document another) :
      Recasts (.build document) (.build another)
  | define {document another : Json} (table : Handle)
      (recasts : Relation.EqvGen (Recast .cls) document another) :
      Recasts (.define table document) (.define table another)
  | attach {document another : Json} (table store : Handle)
      (recasts : Relation.EqvGen (Recast .options) document another) :
      Recasts (.attach table store document) (.attach table store another)
  | other (command : Command) : Recasts (.other command) (.other command)

/-- What each of the commands does, with its reply, its events and the session after it. -/
def Session.steps (session : Session) : List Command → List Step
  | [] => []
  | command :: rest => session.perform command :: (session.perform command).session.steps rest

theorem Errand.Recasts.command?_eq {errand another : Errand} (recasts : errand.Recasts another) :
    errand.command? = another.command? := by
  cases recasts with
  | build recasts => exact congrArg (Option.map Command.build) (decode_eq_of_recasts recasts)
  | define table recasts =>
      exact congrArg (Option.map (Command.define table)) (decode_eq_of_recasts recasts)
  | attach table store recasts =>
      exact congrArg (Option.map (Command.attach table store)) (decode_eq_of_recasts recasts)
  | other command => rfl

theorem mapM_command?_eq {errands others : List Errand}
    (recasts : List.Forall₂ Errand.Recasts errands others) :
    errands.mapM Errand.command? = others.mapM Errand.command? := by
  induction recasts with
  | nil => rfl
  | cons first rest ih => rw [List.mapM_cons, List.mapM_cons, first.command?_eq, ih]

/-- A document of any shape may be restyled at any number of nodes at any depth and is read
as the same.  So hierarchies that are built from the one or the other are the same, and a
session goes on the same and answers the same. -/
theorem presentation_is_immaterial :
    (∀ (shape : Shape) (json other : Json), Relation.EqvGen (Recast shape) json other →
      shape.decode json = shape.decode other) ∧
    (∀ (tag : Nat) (json other : Json), Relation.EqvGen (Recast .classes) json other →
      (Json.listOf ClassDecl.decode json).map (Hierarchy.build tag) =
        (Json.listOf ClassDecl.decode other).map (Hierarchy.build tag)) ∧
    ∀ (session : Session) (errands others : List Errand),
      List.Forall₂ Errand.Recasts errands others →
        (errands.mapM Errand.command?).map session.steps =
          (others.mapM Errand.command?).map session.steps := by
  refine ⟨fun _ _ _ => decode_eq_of_recasts, ?_, ?_⟩
  · intro tag json other recasts
    exact congrArg (Option.map (Hierarchy.build tag)) (decode_eq_of_recasts recasts)
  · intro session errands others recasts
    rw [mapM_command?_eq recasts]

/-- A class whose method is written tersely, and the same class with its keys in another
order, with a key that is not known, and with the method as an array. -/
theorem pin_presentations :
    let terse : Json := .arr [.obj [("name", .str "Pin"), ("methods", .arr
      [.obj [("name", .str "me"), ("body", .obj [("expr", .str "this")])]])]]
    let verbose : Json := .arr [.obj [("methods", .arr
        [.arr [.str "me", .int 0, .obj [("expr", .obj [("this", .null)])]]]),
      ("note", .bool true), ("name", .str "Pin")]]
    Relation.EqvGen (Recast .classes) verbose terse ∧
      Json.listOf ClassDecl.decode verbose = Json.listOf ClassDecl.decode terse ∧
      Json.listOf ClassDecl.decode terse =
        some [{ name := "Pin", methods := [⟨"me", 0, .expr .this⟩] }] := by
  intro terse verbose
  let pin (method : Json) : Json := .arr [.obj [("name", .str "Pin"), ("methods", .arr [method])]]
  let this : Json := .obj [("expr", .obj [("this", .null)])]
  have toClass : Context .classes .cls fun node => .arr [node] := .within .here (.item rfl [] [])
  have toMethod : Context .classes .method pin :=
    .within (.within toClass (@Opening.member .cls _ ⟨"methods", .methods, some (.arr [])⟩ rfl
      (by simp [Shape.parts]) [("name", .str "Pin")] [])) (.item rfl [] [])
  have toBody : Context .classes .body fun node =>
      pin (.obj [("name", .str "me"), ("body", node)]) :=
    .within toMethod (@Opening.member .method _ ⟨"body", .body, none⟩ rfl (by simp [Shape.parts])
      [("name", .str "me")] [])
  have named : Recast .classes terse (pin (.obj [("name", .str "me"), ("body", this)])) :=
    .within (.within toBody (.payload rfl (.head _))) (.bare rfl (.head _))
  have counted : Recast .classes
      (pin (.obj [("name", .str "me"), ("arity", .int 0), ("body", this)]))
      (pin (.obj [("name", .str "me"), ("body", this)])) :=
    .within toMethod (@Restyle.absent .method _ rfl _ (.tail _ (.head _)) _ rfl
      [("name", .str "me")] [("body", this)] (by decide))
  have listed : Recast .classes
      (pin (.obj [("name", .str "me"), ("arity", .int 0), ("body", this)]))
      (pin (.arr [.str "me", .int 0, this])) :=
    .within toMethod (@Restyle.array .method _ rfl [.str "me", .int 0, this] (by decide))
  have noted : Recast .classes verbose
      (.arr [.obj [("methods", .arr [.arr [.str "me", .int 0, this]]), ("name", .str "Pin")]]) :=
    .within toClass (.unknown rfl (by decide) (.bool true) [_] [_])
  have ordered : Recast .classes
      (.arr [.obj [("methods", .arr [.arr [.str "me", .int 0, this]]), ("name", .str "Pin")]])
      (pin (.arr [.str "me", .int 0, this])) :=
    .within toClass (.permute rfl (List.Perm.swap _ _ []))
  have recasts : Relation.EqvGen (Recast .classes) verbose terse :=
    .trans _ _ _ (.rel _ _ noted) <| .trans _ _ _ (.rel _ _ ordered) <|
      .trans _ _ _ (.symm _ _ (.rel _ _ listed)) <| .trans _ _ _ (.rel _ _ counted) <|
        .symm _ _ (.rel _ _ named)
  have isThis : Expr.decode (.str "this") = some .this := by simp [Expr.decode]
  have readMethod : MethodDecl.decode
      (.obj [("name", .str "me"), ("body", .obj [("expr", .str "this")])]) =
        some ⟨"me", 0, .expr .this⟩ :=
    congrArg (fun read => (read.map Body.expr).bind fun body => some (MethodDecl.mk "me" 0 body))
      isThis
  have readClass : ClassDecl.decode (.obj [("name", .str "Pin"), ("methods", .arr
      [.obj [("name", .str "me"), ("body", .obj [("expr", .str "this")])]])]) =
        some { name := "Pin", methods := [⟨"me", 0, .expr .this⟩] } :=
    congrArg (·.bind fun methods => some (ClassDecl.mk "Pin" none [] methods))
      (mapM_eq_some_iff.mpr (.cons readMethod .nil))
  exact ⟨recasts, presentation_is_immaterial.1 .classes verbose terse recasts,
    mapM_eq_some_iff.mpr (.cons readClass .nil)⟩

end Lineage
