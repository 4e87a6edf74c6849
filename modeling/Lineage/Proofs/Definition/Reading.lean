import Mathlib.Data.List.Forall2
import Mathlib.Data.List.Nodup
import Lineage.AssocMap
import Lineage.Definition.Decode
import Lineage.Options
import Lineage.Proofs.Definition.Grammar

/-!
# How definitions are read

Every shape has a decoder, and what the decoder does with a document is what the rule of the
shape says (`governs`): a scalar is tested, an array is read item by item, a record is read
part by part from what stands under its keys, and a choice goes on with the payload of the
variant that is named.  What follows for all decoders needs the rules only.
-/

set_option autoImplicit false

namespace Lineage

/-! ## Decoders -/

/-- What a document of the shape denotes. -/
def Shape.Meaning : Shape → Type
  | .text => String
  | .textOrNull => Option String
  | .count => Nat
  | .flag => Bool
  | .literal => Literal
  | .domain => Domain
  | .domainOrNull => Option Domain
  | .expr | .arg | .new | .get | .set | .invoke | .super => Expr
  | .exprs => List Expr
  | .body => Body
  | .field => FieldDecl
  | .fields => List FieldDecl
  | .method => MethodDecl
  | .methods => List MethodDecl
  | .cls => ClassDecl
  | .classes => List ClassDecl
  | .options => Options

/-- The payload of a variant is read as part of its expression. -/
def Shape.decode : (shape : Shape) → Json → Option shape.Meaning
  | .text => Json.str?
  | .textOrNull => Json.nullable Json.str?
  | .count => Json.count?
  | .flag => Json.bool?
  | .literal => Literal.decode
  | .domain => Domain.decode
  | .domainOrNull => Json.nullable Domain.decode
  | .expr => Expr.decode
  | .arg => fun payload => Expr.decode (.obj [("arg", payload)])
  | .new => fun payload => Expr.decode (.obj [("new", payload)])
  | .get => fun payload => Expr.decode (.obj [("get", payload)])
  | .set => fun payload => Expr.decode (.obj [("set", payload)])
  | .invoke => fun payload => Expr.decode (.obj [("invoke", payload)])
  | .super => fun payload => Expr.decode (.obj [("super", payload)])
  | .exprs => Json.listOf Expr.decode
  | .body => Body.decode
  | .field => FieldDecl.decode
  | .fields => Json.listOf FieldDecl.decode
  | .method => MethodDecl.decode
  | .methods => Json.listOf MethodDecl.decode
  | .cls => ClassDecl.decode
  | .classes => Json.listOf ClassDecl.decode
  | .options => Options.decode

/-! ## Lists -/

section Lists
variable {α β : Type} {read : α → Option β}

theorem isSome_mapM_iff (items : List α) :
    (items.mapM read).isSome = true ↔ ∀ item ∈ items, (read item).isSome = true := by
  induction items with
  | nil => simp
  | cons item rest ih =>
      rw [List.forall_mem_cons, ← ih, List.mapM_cons]
      cases read item with
      | none => simp
      | some value => cases rest.mapM read <;> simp

theorem mapM_eq_some_iff {items : List α} {values : List β} :
    items.mapM read = some values ↔
      List.Forall₂ (fun item value => read item = some value) items values := by
  induction items generalizing values with
  | nil => cases values <;> simp
  | cons item rest ih =>
      rw [List.mapM_cons]
      cases values with
      | nil => cases read item <;> cases rest.mapM read <;> simp
      | cons value values =>
          rw [List.forall₂_cons, ← ih]
          cases read item <;> cases rest.mapM read <;> simp

theorem exists_of_mapM_eq_some {items : List α} {values : List β}
    (run : items.mapM read = some values) {value : β} (listed : value ∈ values) :
    ∃ item ∈ items, read item = some value := by
  rw [mapM_eq_some_iff] at run
  induction run with
  | nil => cases listed
  | @cons item _ _ _ first rest ih =>
      rcases List.mem_cons.mp listed with rfl | later
      · exact ⟨item, List.mem_cons_self, first⟩
      · obtain ⟨other, inRest, read⟩ := ih later
        exact ⟨other, List.mem_cons_of_mem item inRest, read⟩

end Lists

/-! ## Records -/

namespace Json

/-- What stands under a key of the record. -/
def Record.given {json : Json} (record : Record json) (key : String) : Option Json :=
  (record.part? key).map (·.1)

/-- What stands under the keys, if the document is a record with these parts. -/
def under? (parts : List Part) (json : Json) : Option (String → Option Json) :=
  (json.record? (parts.map (·.name))).map Record.given

theorem under?_obj (parts : List Part) (members : List (String × Json)) :
    (obj members).under? parts =
      if ∀ part ∈ parts, (members.map Prod.fst).count part.name ≤ 1 then
        some fun key => members.lookup key
      else none := by
  have once : ((parts.map (·.name)).all fun key => members.countP (·.1 == key) ≤ 1) = true ↔
      ∀ part ∈ parts, (members.map Prod.fst).count part.name ≤ 1 := by
    simp only [List.all_map, List.all_eq_true, decide_eq_true_eq, List.count, List.countP_map,
      Function.comp_def]
  unfold under?
  by_cases isOnce : ∀ part ∈ parts, (members.map Prod.fst).count part.name ≤ 1
  · rw [record?, if_pos (once.mpr isOnce), if_pos isOnce, Option.map_some]
    refine congrArg some (funext fun key => ?_)
    rw [Record.given, Record.part?, ← AssocMap.lookup_map, List.map_map]
    exact congrArg (fun entries => List.lookup key entries) (List.attach_map_subtype_val members)
  · rw [record?, if_neg (fun all => isOnce (once.mp all)), if_neg isOnce, Option.map_none]

theorem under?_arr (parts : List Part) (items : List Json) :
    (arr items).under? parts =
      if items.length ≤ parts.length then
        some fun key => ((parts.map (·.name)).zip items).lookup key
      else none := by
  unfold under?
  by_cases fits : items.length ≤ parts.length
  · rw [record?, List.length_map, if_pos fits, if_pos fits, Option.map_some]
    refine congrArg some (funext fun key => ?_)
    have whole : (items.attach.map fun item =>
        (⟨item.1, sizeOf_lt_arr item.2⟩ : Below (arr items))).map (·.1) = items := by
      rw [List.map_map]
      exact List.attach_map_subtype_val items
    rw [Record.given, Record.part?, ← AssocMap.lookup_map]
    refine congrArg (fun entries => List.lookup key entries) ?_
    refine Eq.trans List.zip_map_right.symm ?_
    rw [whole]
  · rw [record?, List.length_map, if_neg fits, if_neg fits, Option.map_none]

end Json

section Members
variable {members : List (String × Json)} {key : String}

theorem lookup_eq_none_iff_notMem : members.lookup key = none ↔ key ∉ members.map Prod.fst := by
  simp only [List.lookup_eq_none_iff, List.mem_map, not_exists, not_and, bne_iff_ne, ne_eq]
  exact forall₂_congr fun entry _ => not_congr eq_comm

/-- A key that is not repeated has the one value that stands with it. -/
theorem lookup_eq_some_iff_mem (once : (members.map Prod.fst).count key ≤ 1) (node : Json) :
    members.lookup key = some node ↔ (key, node) ∈ members := by
  induction members with
  | nil => simp
  | cons entry rest ih =>
      obtain ⟨name, held⟩ := entry
      rw [List.map_cons, List.count_cons] at once
      rw [List.mem_cons, Prod.mk.injEq]
      by_cases here : name = key
      · subst here
        have notLater : (name, node) ∉ rest := by
          intro inRest
          have repeated : name ∈ rest.map Prod.fst := List.mem_map_of_mem inRest
          have positive := List.count_pos_iff.mpr repeated
          simp only [BEq.rfl, if_true] at once
          omega
        simp [notLater, eq_comm]
      · have differs : (key == name) = false := beq_eq_false_iff_ne.mpr (Ne.symm here)
        rw [List.lookup_cons, differs, ih (by omega)]
        simp [Ne.symm here]

end Members

/-- What is read for a part from what stands under the keys. -/
def Part.read (part : Part) (given : String → Option Json) : Option part.shape.Meaning :=
  ((given part.name).or part.absent).bind part.shape.decode

/-- A function of one value for each part. -/
def Builder (α : Type) : List Part → Type
  | [] => α
  | part :: rest => part.shape.Meaning → Builder α rest

/-- Read the parts one by one and build on what they denote. -/
def assemble {α : Type} (given : String → Option Json) :
    (parts : List Part) → Builder α parts → Option α
  | [], whole => some whole
  | part :: rest, build => (part.read given).bind fun value => assemble given rest (build value)

section Records
variable {α : Type} {json : Json} (record : Json.Record json) (key : String)

theorem required_eq (decode : Json → Option α) :
    record.required key decode = ((record.given key).or none).bind decode := by
  unfold Json.Record.required Json.Record.given
  cases record.part? key <;> rfl

theorem optional_eq {absent : α} {decode : Json → Option α} {written : Json}
    (isAbsent : decode written = some absent) :
    record.optional key absent decode = ((record.given key).or (some written)).bind decode := by
  unfold Json.Record.optional Json.Record.given
  cases record.part? key with
  | none => exact isAbsent.symm
  | some part => rfl

end Records

/-- The decoder reads a record with these parts and builds on them. -/
def Reads {α : Type} (decode : Json → Option α) (parts : List Part) (build : Builder α parts) :
    Prop :=
  ∀ json, decode json = (json.under? parts).bind fun given => assemble given parts build

/-- An object with all keys in the order of the parts. -/
theorem Reads.whole {α : Type} {decode : Json → Option α} {parts : List Part}
    {build : Builder α parts} (reads : Reads decode parts build)
    (distinct : (parts.map (·.name)).Nodup) {members : List (String × Json)}
    (keys : members.map Prod.fst = parts.map (·.name)) :
    decode (.obj members) = assemble (fun key => members.lookup key) parts build := by
  have once : ∀ part ∈ parts, (members.map Prod.fst).count part.name ≤ 1 := by
    rw [keys]
    exact fun part _ => List.nodup_iff_count_le_one.mp distinct part.name
  rw [reads, Json.under?_obj, if_pos once, Option.bind_some]

theorem record?_bind_eq {α : Type} {keys : List String} {parts : List Part}
    (sameKeys : keys = parts.map (·.name)) {build : Builder α parts} (json : Json)
    {next : Json.Record json → Option α}
    (each : ∀ record : Json.Record json, next record = assemble record.given parts build) :
    (json.record? keys >>= next) =
      (json.under? parts).bind fun given => assemble given parts build := by
  subst sameKeys
  unfold Json.under?
  cases json.record? (parts.map (·.name)) with
  | none => rfl
  | some record => exact each record

/-! ### The records of definitions -/

theorem reads_field : Reads Shape.field.decode Shape.field.parts FieldDecl.mk := by
  intro json
  refine record?_bind_eq (by rfl) json fun record => ?_
  have isNil : Literal.decode .null = some .nil := rfl
  rw [required_eq, optional_eq record "default" isNil]
  rfl

theorem reads_method : Reads Shape.method.decode Shape.method.parts MethodDecl.mk := by
  intro json
  refine record?_bind_eq (by rfl) json fun record => ?_
  have isZero : Json.count? (.int 0) = some 0 := rfl
  rw [required_eq, optional_eq record "arity" isZero, required_eq]
  rfl

theorem reads_cls : Reads Shape.cls.decode Shape.cls.parts ClassDecl.mk := by
  intro json
  refine record?_bind_eq (by rfl) json fun record => ?_
  have isRoot : Json.nullable Json.str? .null = some none := rfl
  have noFields : Json.listOf FieldDecl.decode (.arr []) = some [] := rfl
  have noMethods : Json.listOf MethodDecl.decode (.arr []) = some [] := rfl
  rw [required_eq, optional_eq record "parent" isRoot, optional_eq record "fields" noFields,
    optional_eq record "methods" noMethods]
  rfl

theorem reads_options : Reads Shape.options.decode Shape.options.parts Options.mk := by
  intro json
  refine record?_bind_eq (by rfl) json fun record => ?_
  have isDepth : Json.count? (.int 256) = some 256 := rfl
  have isFlag : Json.bool? (.bool false) = some false := rfl
  rw [optional_eq record "max_call_depth" isDepth, optional_eq record "trace_calls" isFlag]
  rfl

-- The equations of these are long and derived here, once for all the proofs that follow.
attribute [local simp] Shape.decode Expr.decode

theorem reads_arg : Reads Shape.arg.decode Shape.arg.parts Expr.arg := by
  intro json
  simp only [Shape.decode, Expr.decode]
  refine record?_bind_eq (by rfl) json fun record => ?_
  rw [required_eq]
  rfl

theorem reads_new : Reads Shape.new.decode Shape.new.parts Expr.new := by
  intro json
  simp only [Shape.decode, Expr.decode]
  refine record?_bind_eq (by rfl) json fun record => ?_
  have isInherited : Json.nullable Domain.decode .null = some none := rfl
  rw [required_eq, optional_eq record "domain" isInherited]
  rfl

/-! The payloads of some variants look up all parts before they read any. -/

theorem part?_bind_eq {α β : Type} {json : Json} (record : Json.Record json) (key : String)
    (decode : Json → Option α) (next : α → Option β) :
    ((record.part? key).bind fun part => (decode part.1).bind next) =
      (((record.given key).or none).bind decode).bind next := by
  unfold Json.Record.given
  cases record.part? key <;> rfl

theorem items?_bind_eq {α β : Type} (json : Json) (decode : Json → Option α)
    (next : List α → Option β) :
    (json.items?.bind fun items => (items.mapM fun item => decode item.1).bind next) =
      (Json.listOf decode json).bind next := by
  cases json with
  | arr items =>
      have whole : items.attach.map Subtype.val = items := List.attach_map_subtype_val items
      have read : items.attach.mapM (fun item => decode item.1) = items.mapM decode :=
        List.mapM_map.symm.trans (congrArg (List.mapM decode) whole)
      rw [Json.items?, Option.bind_some, List.mapM_map]
      exact congrArg (·.bind next) read
  | _ => rfl

/-- Arguments that are left out are none. -/
theorem args_bind_eq {β : Type} {json : Json} (record : Json.Record json)
    (next : List Expr → Option β) :
    (match record.part? "args" with
      | none => next []
      | some args => args.1.items?.bind fun items =>
          (items.mapM fun item => Expr.decode item.1).bind next) =
      (((record.given "args").or (some (.arr []))).bind (Json.listOf Expr.decode)).bind next := by
  unfold Json.Record.given
  cases record.part? "args" with
  | none => rfl
  | some args => exact items?_bind_eq args.1 Expr.decode next

theorem reads_get : Reads Shape.get.decode Shape.get.parts Expr.get := by
  intro json
  simp only [Shape.decode, Expr.decode]
  refine record?_bind_eq (by rfl) json fun record => ?_
  calc
    _ = (record.part? "target").bind fun target => (Expr.decode target.1).bind fun receiver =>
          (record.required "field" Json.str?).bind fun field => some (Expr.get receiver field) :=
        Option.bind_congr fun target _ => Option.bind_comm _ _
    _ = _ := by
        rw [part?_bind_eq, required_eq]
        rfl

theorem reads_set : Reads Shape.set.decode Shape.set.parts Expr.set := by
  intro json
  simp only [Shape.decode, Expr.decode]
  refine record?_bind_eq (by rfl) json fun record => ?_
  calc
    _ = (record.part? "target").bind fun target => (Expr.decode target.1).bind fun receiver =>
          (record.required "field" Json.str?).bind fun field =>
            (record.part? "value").bind fun part => (Expr.decode part.1).bind fun value =>
              some (Expr.set receiver field value) :=
        Option.bind_congr fun target _ =>
          (Option.bind_congr fun field _ => Option.bind_comm _ _).trans (Option.bind_comm _ _)
    _ = _ := by
        simp only [part?_bind_eq, required_eq]
        rfl

theorem reads_invoke : Reads Shape.invoke.decode Shape.invoke.parts Expr.invoke := by
  intro json
  simp only [Shape.decode, Expr.decode]
  refine record?_bind_eq (by rfl) json fun record => ?_
  let values := ((record.given "args").or (some (.arr []))).bind (Json.listOf Expr.decode)
  calc
    _ = (record.part? "target").bind fun target => (record.required "method" Json.str?).bind
          fun method => values.bind fun args => (Expr.decode target.1).bind fun receiver =>
            some (Expr.invoke receiver method args) :=
        Option.bind_congr fun target _ => Option.bind_congr fun method _ =>
          args_bind_eq record fun args => (Expr.decode target.1).bind fun receiver =>
            some (Expr.invoke receiver method args)
    _ = (record.part? "target").bind fun target => (Expr.decode target.1).bind fun receiver =>
          (record.required "method" Json.str?).bind fun method => values.bind fun args =>
            some (Expr.invoke receiver method args) :=
        Option.bind_congr fun target _ =>
          (Option.bind_congr fun method _ => Option.bind_comm _ _).trans (Option.bind_comm _ _)
    _ = _ := by
        rw [part?_bind_eq, required_eq]
        rfl

theorem reads_super : Reads Shape.super.decode Shape.super.parts Expr.super := by
  intro json
  simp only [Shape.decode, Expr.decode]
  refine record?_bind_eq (by rfl) json fun record => ?_
  rw [required_eq]
  exact Option.bind_congr fun method _ =>
    args_bind_eq record fun args => some (Expr.super method args)

/-! ## Choices -/

/-- The decoder reads a choice between these variants. -/
structure Chooses {α : Type} (decode : Json → Option α) (orNull : Bool) (names : List String)
    (carrying : List (String × Shape)) : Prop where
  null : (decode .null).isSome = orNull
  bare : ∀ name, (decode (.str name)).isSome = true ↔ name ∈ names
  alone : ∀ name ∈ names, decode (.obj [(name, .null)]) = decode (.str name)
  carried : ∀ name inner, (name, inner) ∈ carrying → ∃ build : inner.Meaning → α, ∀ payload,
    decode (.obj [(name, payload)]) = (inner.decode payload).map build
  only : ∀ json value, decode json = some value → json = .null ∨ (∃ name, json = .str name) ∨
    (∃ name ∈ names, json = .obj [(name, .null)]) ∨
    ∃ name inner payload, (name, inner) ∈ carrying ∧ json = .obj [(name, payload)]

theorem chooses_domain : Chooses Domain.decode false ["managed", "unmanaged"] [] where
  null := rfl
  bare name := by
    unfold Domain.decode
    split <;> simp_all
  alone := by simp [Domain.decode]
  carried := nofun
  only json value read := by
    unfold Domain.decode at read
    split at read <;> simp_all

theorem Chooses.nullable {α : Type} {decode : Json → Option α} {names : List String}
    {carrying : List (String × Shape)} (chooses : Chooses decode false names carrying) :
    Chooses (Json.nullable decode) true names carrying where
  null := rfl
  bare name := by
    rw [← chooses.bare name, Json.nullable, Option.isSome_map]
    exact nofun
  alone name known := congrArg (Option.map some) (chooses.alone name known)
  carried name inner known := by
    obtain ⟨build, reads⟩ := chooses.carried name inner known
    refine ⟨some ∘ build, fun payload => ?_⟩
    rw [Json.nullable, reads payload, Option.map_map]
    exact nofun
  only json value read := by
    unfold Json.nullable at read
    split at read
    · exact .inl rfl
    · obtain ⟨inner, isInner, _⟩ := Option.map_eq_some_iff.mp read
      exact chooses.only json inner isInner

theorem chooses_body : Chooses Body.decode false [] [("expr", .expr)] where
  null := rfl
  bare name := by simp [Body.decode]
  alone := nofun
  carried name inner known := by
    cases List.mem_singleton.mp known
    exact ⟨Body.expr, fun payload => rfl⟩
  only json value read := by
    unfold Body.decode at read
    split at read
    · exact .inr (.inr (.inr ⟨_, _, _, List.mem_singleton_self _, rfl⟩))
    · cases read

theorem chooses_expr : Chooses Expr.decode false ["this"]
    [("lit", .literal), ("arg", .arg), ("new", .new), ("get", .get), ("set", .set),
      ("invoke", .invoke), ("super", .super), ("seq", .exprs)] where
  null := by simp
  bare name := by
    unfold Expr.decode
    split <;> simp_all
  alone := by simp
  carried name inner known := by
    simp only [List.mem_cons, Prod.mk.injEq, List.not_mem_nil, or_false] at known
    rcases known with ⟨rfl, rfl⟩ | ⟨rfl, rfl⟩ | ⟨rfl, rfl⟩ | ⟨rfl, rfl⟩ | ⟨rfl, rfl⟩ | ⟨rfl, rfl⟩ |
      ⟨rfl, rfl⟩ | ⟨rfl, rfl⟩
    case inl =>
      refine ⟨Expr.lit, fun payload => ?_⟩
      rw [Expr.decode]
      rfl
    case inr.inr.inr.inr.inr.inr.inr =>
      refine ⟨Expr.seq, fun payload => ?_⟩
      rw [Expr.decode]
      exact (items?_bind_eq payload Expr.decode fun steps => some (Expr.seq steps)).trans
        Option.map_eq_bind.symm
    -- the payloads that are records are read with their variant
    all_goals exact ⟨id, fun payload => Option.map_id_apply.symm⟩
  only json value read := by
    unfold Expr.decode at read
    split at read <;> simp_all

/-! ## Scalars -/

theorem isSome_str?_iff (json : Json) :
    (Json.str? json).isSome = true ↔ ∃ text, json = .str text := by
  cases json <;> simp [Json.str?]

theorem isSome_nullable_str?_iff (json : Json) :
    (Json.nullable Json.str? json).isSome = true ↔ json = .null ∨ ∃ text, json = .str text := by
  cases json <;> simp [Json.nullable, Json.str?]

theorem isSome_bool?_iff (json : Json) :
    (Json.bool? json).isSome = true ↔ ∃ flag, json = .bool flag := by
  cases json <;> simp [Json.bool?]

theorem isSome_count?_iff (json : Json) :
    (Json.count? json).isSome = true ↔ ∃ n : Nat, n < 0x10000000000000000 ∧ json = .int n := by
  cases json with
  | int n =>
      cases n with
      | ofNat n =>
          constructor
          · intro read
            exact ⟨n, by simpa [Json.count?] using read, rfl⟩
          · rintro ⟨m, below, same⟩
            have sameCount : n = m := Int.ofNat.inj (Json.int.inj same)
            subst sameCount
            simpa [Json.count?] using below
      | negSucc n => simp [Json.count?]
  | _ => simp [Json.count?]

theorem isSome_literal_iff (json : Json) :
    (Literal.decode json).isSome = true ↔ json.IsLiteral := by
  cases json with
  | int n =>
      have least : Int64.minValue.toInt = -0x8000000000000000 := rfl
      have greatest : Int64.maxValue.toInt = 0x8000000000000000 - 1 := rfl
      rw [Literal.decode, Literal.ofInt?, least, greatest, Json.IsLiteral, Option.isSome_ite]
      omega
  | _ => simp [Literal.decode, Json.IsLiteral]

/-! ## Rules -/

/-- The decoder does what the rule says. -/
def Rule.Governs {α : Type} (decode : Json → Option α) : Rule → Prop
  | .scalar accepts => ∀ json, (decode json).isSome = true ↔ accepts json
  | .list inner => ∃ build : List inner.Meaning → α, ∀ json,
      decode json = (Json.listOf inner.decode json).map build
  | .record parts =>
      (parts.map (·.name)).Nodup ∧
      (parts.all fun part => part.absent.all fun json => (part.shape.decode json).isSome) = true ∧
      ∃ build, Reads decode parts build
  | .choice orNull bare carrying => Chooses decode orNull bare carrying

/-- The decoder of every shape does what the rule of the shape says. -/
theorem governs (shape : Shape) : shape.rule.Governs shape.decode := by
  cases shape with
  | text => exact isSome_str?_iff
  | textOrNull => exact isSome_nullable_str?_iff
  | count => exact isSome_count?_iff
  | flag => exact isSome_bool?_iff
  | literal => exact isSome_literal_iff
  | domain => exact chooses_domain
  | domainOrNull => exact chooses_domain.nullable
  | expr => exact chooses_expr
  | arg => exact ⟨by decide, rfl, _, reads_arg⟩
  | new => exact ⟨by decide, rfl, _, reads_new⟩
  | get => exact ⟨by decide, rfl, _, reads_get⟩
  | set => exact ⟨by decide, rfl, _, reads_set⟩
  | invoke => exact ⟨by decide, rfl, _, reads_invoke⟩
  | super => exact ⟨by decide, rfl, _, reads_super⟩
  | body => exact chooses_body
  | field => exact ⟨by decide, rfl, _, reads_field⟩
  | method => exact ⟨by decide, rfl, _, reads_method⟩
  | cls => exact ⟨by decide, rfl, _, reads_cls⟩
  | options => exact ⟨by decide, rfl, _, reads_options⟩
  | exprs | fields | methods | classes => exact ⟨id, fun json => Option.map_id_apply.symm⟩

theorem governs_of_rule {shape : Shape} {rule : Rule} (isRule : shape.rule = rule) :
    rule.Governs shape.decode :=
  isRule ▸ governs shape

end Lineage
