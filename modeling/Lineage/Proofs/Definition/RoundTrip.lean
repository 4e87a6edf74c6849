import Lineage.Definition.Encode
import Lineage.Proofs.Call.Steps
import Lineage.Proofs.Definition.Reading

/-!
# Writing and reading back

Everything that is written is read back as it was, whatever its depth, as long as its counts
are in the range of 64 bits, which all that is ever read are (`RoundTrips`).  Only native
bodies have no written form, so a list of classes can be written if it has none of them.
-/

set_option autoImplicit false

namespace Lineage

/-! ## Counts and native bodies -/

/-- The counts are in the range of 64 bits. -/
def Sized (counts : List Nat) : Prop := ∀ n ∈ counts, n < UInt64.size

@[simp] theorem sized_nil : Sized [] := nofun

@[simp] theorem sized_append (counts others : List Nat) :
    Sized (counts ++ others) ↔ Sized counts ∧ Sized others :=
  List.forall_mem_append

@[simp] theorem sized_cons (count : Nat) (others : List Nat) :
    Sized (count :: others) ↔ count < UInt64.size ∧ Sized others :=
  List.forall_mem_cons

theorem sized_flatMap {α : Type} (counts : α → List Nat) (values : List α) :
    Sized (values.flatMap counts) ↔ ∀ value ∈ values, Sized (counts value) := by
  simp only [Sized, List.mem_flatMap]
  exact ⟨fun all value listed n isCount => all n ⟨value, listed, isCount⟩,
    fun all n ⟨value, listed, isCount⟩ => all value listed n isCount⟩

namespace Expr

mutual

/-- The argument indices of an expression. -/
def counts : Expr → List Nat
  | .lit _ | .this | .new _ _ => []
  | .arg index => [index]
  | .get target _ => counts target
  | .set target _ value => counts target ++ counts value
  | .invoke target _ args => counts target ++ countsAll args
  | .super _ args => countsAll args
  | .seq steps => countsAll steps

def countsAll : List Expr → List Nat
  | [] => []
  | expr :: rest => counts expr ++ countsAll rest

end

theorem countsAll_eq (exprs : List Expr) : countsAll exprs = exprs.flatMap counts := by
  induction exprs with
  | nil => rfl
  | cons expr rest ih => rw [countsAll, ih, List.flatMap_cons]

end Expr

def Body.counts : Body → List Nat
  | .expr body => body.counts
  | .native _ => []

def MethodDecl.counts (decl : MethodDecl) : List Nat := decl.arity :: decl.body.counts

namespace ClassDecl

def counts (decl : ClassDecl) : List Nat := decl.methods.flatMap MethodDecl.counts

def HasNative (decl : ClassDecl) : Prop := ∃ method ∈ decl.methods, method.body.isExpr = false

end ClassDecl

/-! ## Round trips -/

/-- What is written is read back, and what is read can be written. -/
structure RoundTrips {α : Type} (encode : α → Option Json) (decode : Json → Option α)
    (counts : α → List Nat) (isNative : α → Prop) : Prop where
  refused : ∀ value, encode value = none ↔ isNative value
  readBack : ∀ value json, Sized (counts value) → encode value = some json →
    decode json = some value
  inRange : ∀ json value, decode json = some value → Sized (counts value)
  again : ∀ json value, decode json = some value → ∃ written, encode value = some written ∧
    decode written = some value
  injective : ∀ value other json, Sized (counts value) → Sized (counts other) →
    encode value = some json → encode other = some json → value = other

/-- A round trip of values that can always be written. -/
abbrev RoundTripsAll {α : Type} (encode : α → Json) (decode : Json → Option α)
    (counts : α → List Nat) : Prop :=
  RoundTrips (fun value => some (encode value)) decode counts fun _ => False

section RoundTrips
variable {α : Type} {decode : Json → Option α} {counts : α → List Nat}

theorem roundTrips_of {encode : α → Option Json} {isNative : α → Prop}
    (refused : ∀ value, encode value = none ↔ isNative value)
    (readBack : ∀ value json, Sized (counts value) → encode value = some json →
      decode json = some value)
    (read : ∀ json value, decode json = some value → Sized (counts value) ∧ ¬ isNative value) :
    RoundTrips encode decode counts isNative where
  refused := refused
  readBack := readBack
  inRange json value isRead := (read json value isRead).1
  again json value isRead := by
    obtain ⟨sized, notNative⟩ := read json value isRead
    obtain ⟨written, isWritten⟩ := Option.ne_none_iff_exists'.mp fun none =>
      notNative ((refused value).mp none)
    exact ⟨written, isWritten, readBack value written sized isWritten⟩
  injective value other json sized otherSized isWritten otherWritten := by
    have same := (readBack value json sized isWritten).symm.trans
      (readBack other json otherSized otherWritten)
    exact Option.some.inj same

theorem roundTripsAll_of {encode : α → Json}
    (readBack : ∀ value, Sized (counts value) → decode (encode value) = some value)
    (read : ∀ json value, decode json = some value → Sized (counts value)) :
    RoundTripsAll encode decode counts :=
  roundTrips_of (fun _ => by simp) (fun value json sized isWritten => by
    cases isWritten
    exact readBack value sized) fun json value isRead => ⟨read json value isRead, not_false⟩

theorem RoundTrips.not_native {encode : α → Option Json} {isNative : α → Prop}
    (trip : RoundTrips encode decode counts isNative) {json : Json} {value : α}
    (read : decode json = some value) : ¬ isNative value := by
  intro native
  obtain ⟨written, isWritten, _⟩ := trip.again json value read
  rw [(trip.refused value).mpr native] at isWritten
  cases isWritten

end RoundTrips

/-! ## Lists -/

theorem mapM_map_eq_some {α : Type} {encode : α → Json} {decode : Json → Option α}
    {values : List α} (each : ∀ value ∈ values, decode (encode value) = some value) :
    (values.map encode).mapM decode = some values := by
  rw [mapM_eq_some_iff, List.forall₂_map_left_iff]
  exact List.forall₂_same.mpr each

theorem RoundTrips.list {α : Type} {encode : α → Option Json} {decode : Json → Option α}
    {counts : α → List Nat} {isNative : α → Prop}
    (each : RoundTrips encode decode counts isNative) :
    RoundTrips (fun values => (values.mapM encode).map .arr) (Json.listOf decode)
      (List.flatMap counts) fun values => ∃ value ∈ values, isNative value := by
  refine roundTrips_of ?_ ?_ ?_
  · intro values
    rw [Option.map_eq_none_iff, ← Option.not_isSome_iff_eq_none, isSome_mapM_iff]
    simp only [not_forall, exists_prop, Option.not_isSome_iff_eq_none, each.refused]
  · intro values json sized isWritten
    obtain ⟨items, written, rfl⟩ := Option.map_eq_some_iff.mp isWritten
    clear isWritten
    rw [sized_flatMap] at sized
    rw [mapM_eq_some_iff] at written
    refine mapM_eq_some_iff.mpr ?_
    induction written with
    | nil => exact .nil
    | cons first rest ih =>
        rw [List.forall_mem_cons] at sized
        exact .cons (each.readBack _ _ sized.1 first) (ih sized.2)
  · intro json values isRead
    cases json with
    | arr items =>
      rw [sized_flatMap]
      constructor
      · intro value listed
        obtain ⟨item, _, read⟩ := exists_of_mapM_eq_some isRead listed
        exact each.inRange item value read
      · rintro ⟨value, listed, native⟩
        obtain ⟨item, _, read⟩ := exists_of_mapM_eq_some isRead listed
        exact each.not_native read native
    | _ => cases isRead

/-! ## Scalars -/

theorem Literal.decode_encode (literal : Literal) :
    Literal.decode literal.encode = some literal := by
  cases literal with
  | int n =>
      have inRange : Int64.minValue.toInt ≤ n.toInt ∧ n.toInt ≤ Int64.maxValue.toInt :=
        ⟨Int64.le_iff_toInt_le.mp n.minValue_le, Int64.le_iff_toInt_le.mp n.le_maxValue⟩
      rw [encode, decode, ofInt?, if_pos inRange, Int64.ofInt_toInt]
  | _ => rfl

theorem Json.count?_of_lt {n : Nat} (inRange : n < UInt64.size) : Json.count? (.int n) = some n :=
  if_pos inRange

theorem Json.lt_of_count? {json : Json} {n : Nat} (read : json.count? = some n) :
    n < UInt64.size := by
  unfold count? at read
  split at read
  · split at read
    · cases read
      assumption
    · cases read
  · cases read

theorem roundTrips_literal : RoundTripsAll Literal.encode Literal.decode fun _ => [] :=
  roundTripsAll_of (fun literal _ => literal.decode_encode) fun _ _ _ => sized_nil

theorem roundTrips_domain : RoundTripsAll Domain.encode Domain.decode fun _ => [] :=
  roundTripsAll_of (fun domain _ => by cases domain <;> rfl) fun _ _ _ => sized_nil

/-! ## Expressions -/

theorem nullable_domain_encode (domain : Option Domain) :
    Json.nullable Domain.decode (.ofOption Domain.encode domain) = some domain := by
  rcases domain with _ | _ | _ <;> rfl

namespace Expr

mutual

theorem decode_encode : (expr : Expr) → Sized expr.counts → decode expr.encode = some expr
  | .lit value, _ => by
      rw [encode, decode, value.decode_encode]
      rfl
  | .this, _ => by simp [encode, decode]
  | .arg index, sized => by
      have read := Json.count?_of_lt ((sized_cons _ _).mp sized).1
      rw [encode]
      refine (reads_arg.whole (by decide) rfl).trans ?_
      exact congrArg (·.bind fun index => some (Expr.arg index)) read
  | .new cls domain, _ => by
      have read := nullable_domain_encode domain
      rw [encode]
      refine (reads_new.whole (by decide) rfl).trans ?_
      exact congrArg (·.bind fun domain => some (Expr.new cls domain)) read
  | .get target field, sized => by
      have read := decode_encode target sized
      rw [encode]
      refine (reads_get.whole (by decide) rfl).trans ?_
      exact congrArg (·.bind fun target => some (Expr.get target field)) read
  | .set target field value, sized => by
      rw [counts, sized_append] at sized
      have readTarget := decode_encode target sized.1
      have readValue := decode_encode value sized.2
      rw [encode]
      refine (reads_set.whole (by decide) rfl).trans ?_
      show ((decode target.encode).bind fun target => (decode value.encode).bind fun value =>
        some (Expr.set target field value)) = _
      rw [readTarget, readValue]
      rfl
  | .invoke target method args, sized => by
      rw [counts, sized_append] at sized
      have readTarget := decode_encode target sized.1
      have readArgs := decode_encodeAll args sized.2
      rw [encode]
      refine (reads_invoke.whole (by decide) rfl).trans ?_
      show ((decode target.encode).bind fun target => ((encodeAll args).mapM decode).bind
        fun args => some (Expr.invoke target method args)) = _
      rw [readTarget, readArgs]
      rfl
  | .super method args, sized => by
      have read := decode_encodeAll args sized
      rw [encode]
      refine (reads_super.whole (by decide) rfl).trans ?_
      exact congrArg (·.bind fun args => some (Expr.super method args)) read
  | .seq steps, sized => by
      have read := decode_encodeAll steps sized
      rw [encode, decode]
      refine (items?_bind_eq (.arr (encodeAll steps)) decode fun steps => some (seq steps)).trans ?_
      exact congrArg (·.bind fun steps => some (Expr.seq steps)) read

theorem decode_encodeAll :
    (exprs : List Expr) → Sized (countsAll exprs) → (encodeAll exprs).mapM decode = some exprs
  | [], _ => rfl
  | expr :: rest, sized => by
      rw [countsAll, sized_append] at sized
      rw [encodeAll, List.mapM_cons, decode_encode expr sized.1, decode_encodeAll rest sized.2]
      rfl

end

/-- What is read from items has the counts of the single items. -/
theorem sized_of_items {json : Json} {items : List (Json.Below json)} {exprs : List Expr}
    (read : (items.mapM fun item => decode item.1) = some exprs)
    (each : ∀ (item : Json.Below json) expr, decode item.1 = some expr → Sized expr.counts) :
    Sized (countsAll exprs) := by
  rw [countsAll_eq, sized_flatMap]
  intro expr listed
  obtain ⟨item, _, isRead⟩ := exists_of_mapM_eq_some read listed
  exact each item expr isRead

theorem sized_of_decode {json : Json} {expr : Expr} (read : decode json = some expr) :
    Sized expr.counts := by
  induction size : sizeOf json using Nat.strongRecOn generalizing json expr with
  | ind bound ih =>
      subst size
      have below {name : String} {payload part : Json} {inner : Expr}
          (isWhole : json = .obj [(name, payload)]) (smaller : sizeOf part < sizeOf payload)
          (isInner : decode part = some inner) : Sized inner.counts := by
        have inWhole := Json.sizeOf_lt_obj (List.mem_singleton_self (name, payload))
        exact ih _ (isWhole ▸ Nat.lt_trans smaller inWhole) isInner rfl
      -- one case for each form that a document of an expression can have
      unfold decode at read
      split at read
      case h_1 | h_2 =>
        cases read
        exact sized_nil
      case h_3 =>
        obtain ⟨value, _, rfl⟩ := Option.map_eq_some_iff.mp read
        exact sized_nil
      case h_4 =>
        simp only [bind, pure, Option.bind_eq_some_iff, Option.some.injEq] at read
        obtain ⟨record, _, index, isIndex, rfl⟩ := read
        obtain ⟨part, _, isCount⟩ := Option.bind_eq_some_iff.mp isIndex
        exact (sized_cons index []).mpr ⟨Json.lt_of_count? isCount, sized_nil⟩
      case h_5 =>
        simp only [bind, pure, Option.bind_eq_some_iff, Option.some.injEq] at read
        obtain ⟨record, _, cls, _, domain, _, rfl⟩ := read
        exact sized_nil
      case h_6 =>
        simp only [bind, pure, Option.bind_eq_some_iff, Option.some.injEq] at read
        obtain ⟨record, _, target, _, field, _, receiver, isReceiver, rfl⟩ := read
        rw [counts]
        exact below rfl target.2 isReceiver
      case h_7 =>
        simp only [bind, pure, Option.bind_eq_some_iff, Option.some.injEq] at read
        obtain ⟨record, _, target, _, field, _, part, _, receiver, isReceiver, value, isValue,
          rfl⟩ := read
        rw [counts, sized_append]
        exact ⟨below rfl target.2 isReceiver,
          below rfl part.2 isValue⟩
      case h_8 =>
        simp only [bind, pure, Option.bind_eq_some_iff] at read
        obtain ⟨record, _, target, _, method, _, rest⟩ := read
        split at rest
        · simp only [Option.bind_eq_some_iff, Option.some.injEq] at rest
          obtain ⟨receiver, isReceiver, rfl⟩ := rest
          rw [counts, sized_append]
          exact ⟨below rfl target.2 isReceiver, sized_nil⟩
        · rename_i args _
          simp only [Option.bind_eq_some_iff, Option.some.injEq] at rest
          obtain ⟨items, _, values, isValues, receiver, isReceiver, rfl⟩ := rest
          rw [counts, sized_append]
          refine ⟨below rfl target.2 isReceiver, ?_⟩
          refine sized_of_items isValues fun item value isValue => ?_
          exact below rfl (Nat.lt_trans item.2 args.2) isValue
      case h_9 =>
        simp only [bind, pure, Option.bind_eq_some_iff] at read
        obtain ⟨record, _, method, _, rest⟩ := read
        split at rest
        · cases rest
          exact sized_nil
        · rename_i args _
          simp only [Option.bind_eq_some_iff, Option.some.injEq] at rest
          obtain ⟨items, _, values, isValues, rfl⟩ := rest
          refine sized_of_items isValues fun item value isValue => ?_
          exact below rfl (Nat.lt_trans item.2 args.2) isValue
      case h_10 =>
        simp only [bind, pure, Option.bind_eq_some_iff, Option.some.injEq] at read
        obtain ⟨items, _, steps, isSteps, rfl⟩ := read
        refine sized_of_items isSteps fun item step isStep => ?_
        exact below rfl item.2 isStep
      case h_11 => cases read

end Expr

theorem roundTrips_expr : RoundTripsAll Expr.encode Expr.decode Expr.counts :=
  roundTripsAll_of Expr.decode_encode fun _ _ => Expr.sized_of_decode

/-! ## Declarations -/

theorem optional_cases {json : Json} {α : Type} {record : Json.Record json} {key : String}
    {absent value : α} {decode : Json → Option α}
    (read : record.optional key absent decode = some value) :
    value = absent ∨ ∃ part, decode part = some value := by
  unfold Json.Record.optional at read
  split at read
  · exact .inl (Option.some.inj read).symm
  · exact .inr ⟨_, read⟩

/-- A count that may be left out is in range if the one that stands for it is. -/
theorem optional_count_lt {json : Json} {record : Json.Record json} {key : String}
    {absent n : Nat} (inRange : absent < UInt64.size)
    (read : record.optional key absent Json.count? = some n) : n < UInt64.size := by
  rcases optional_cases read with rfl | ⟨part, isCount⟩
  · exact inRange
  · exact Json.lt_of_count? isCount

theorem roundTrips_options :
    RoundTripsAll Options.encode Options.decode fun options => [options.maxCallDepth] := by
  refine roundTripsAll_of (fun options sized => ?_) fun json options read => ?_
  · have read := Json.count?_of_lt ((sized_cons _ _).mp sized).1
    refine (reads_options.whole (by decide) rfl).trans ?_
    exact congrArg (·.bind fun depth => some (Options.mk depth options.traceCalls)) read
  · unfold Options.decode at read
    simp only [bind, pure, Option.bind_eq_some_iff, Option.some.injEq] at read
    obtain ⟨record, _, depth, isDepth, trace, _, rfl⟩ := read
    exact (sized_cons depth []).mpr ⟨optional_count_lt (by decide) isDepth, sized_nil⟩

theorem roundTrips_field : RoundTripsAll FieldDecl.encode FieldDecl.decode fun _ => [] := by
  refine roundTripsAll_of (fun decl _ => ?_) fun _ _ _ => sized_nil
  have read := decl.initial.decode_encode
  refine (reads_field.whole (by decide) rfl).trans ?_
  exact congrArg (·.bind fun initial => some (FieldDecl.mk decl.name initial)) read

theorem roundTrips_body :
    RoundTrips Body.encode Body.decode Body.counts fun body => body.isExpr = false := by
  refine roundTrips_of (fun body => ?_) (fun body json sized written => ?_)
    fun json body read => ?_
  · cases body <;> simp [Body.encode, Body.isExpr]
  · cases body with
    | expr expr =>
        cases written
        exact congrArg (Option.map Body.expr) (expr.decode_encode sized)
    | native native => cases written
  · unfold Body.decode at read
    split at read
    · obtain ⟨expr, isExpr, rfl⟩ := Option.map_eq_some_iff.mp read
      exact ⟨Expr.sized_of_decode isExpr, by simp [Body.isExpr]⟩
    · cases read

theorem roundTrips_method :
    RoundTrips MethodDecl.encode MethodDecl.decode MethodDecl.counts
      fun method => method.body.isExpr = false := by
  refine roundTrips_of (fun method => ?_) (fun method json sized written => ?_)
    fun json method read => ?_
  · rw [← roundTrips_body.refused, MethodDecl.encode]
    cases method.body.encode <;> simp
  · obtain ⟨countSized, bodySized⟩ := (sized_cons _ _).mp sized
    obtain ⟨body, isBody, same⟩ := Option.bind_eq_some_iff.mp written
    cases same
    have readCount := Json.count?_of_lt countSized
    have readBody := roundTrips_body.readBack method.body body bodySized isBody
    refine (reads_method.whole (by decide) rfl).trans ?_
    show ((Json.count? (.int method.arity)).bind fun arity => (Body.decode body).bind fun body =>
      some (MethodDecl.mk method.name arity body)) = _
    rw [readCount, readBody]
    rfl
  · unfold MethodDecl.decode at read
    simp only [bind, pure, Option.bind_eq_some_iff, Option.some.injEq] at read
    obtain ⟨record, _, name, _, arity, isArity, body, isBody, rfl⟩ := read
    obtain ⟨part, _, readBody⟩ := Option.bind_eq_some_iff.mp isBody
    have countSized := optional_count_lt (by decide) isArity
    have bodySized := roundTrips_body.inRange part.1 body readBody
    exact ⟨(sized_cons _ _).mpr ⟨countSized, bodySized⟩, roundTrips_body.not_native readBody⟩

theorem nullable_str_encode (text : Option String) :
    Json.nullable Json.str? (.ofOption .str text) = some text := by
  cases text <;> rfl

theorem roundTrips_cls :
    RoundTrips ClassDecl.encode ClassDecl.decode ClassDecl.counts ClassDecl.HasNative := by
  have methodsTrip := roundTrips_method.list
  refine roundTrips_of (fun decl => ?_) (fun decl json sized written => ?_)
    fun json decl read => ?_
  · rw [ClassDecl.HasNative, ← methodsTrip.refused, ClassDecl.encode]
    cases decl.methods.mapM MethodDecl.encode <;> simp
  · obtain ⟨methods, isMethods, same⟩ := Option.bind_eq_some_iff.mp written
    cases same
    have readParent := nullable_str_encode decl.parent
    have readFields : Json.listOf FieldDecl.decode (.arr (decl.fields.map FieldDecl.encode)) =
        some decl.fields :=
      mapM_map_eq_some fun field _ => roundTrips_field.readBack field _ sized_nil rfl
    have readMethods := methodsTrip.readBack decl.methods (.arr methods) sized
      (congrArg (Option.map Json.arr) isMethods)
    refine (reads_cls.whole (by decide) rfl).trans ?_
    show ((Json.nullable Json.str? (.ofOption .str decl.parent)).bind fun parent =>
      (Json.listOf FieldDecl.decode (.arr (decl.fields.map FieldDecl.encode))).bind fun fields =>
        (Json.listOf MethodDecl.decode (.arr methods)).bind fun methods =>
          some (ClassDecl.mk decl.name parent fields methods)) = _
    rw [readParent, readFields, readMethods]
    rfl
  · unfold ClassDecl.decode at read
    simp only [bind, pure, Option.bind_eq_some_iff, Option.some.injEq] at read
    obtain ⟨record, _, name, _, parent, _, fields, _, methods, isMethods, rfl⟩ := read
    rcases optional_cases isMethods with rfl | ⟨part, readMethods⟩
    · exact ⟨sized_nil, nofun⟩
    · exact ⟨methodsTrip.inRange part methods readMethods, methodsTrip.not_native readMethods⟩

/-- Definitions and options are read back as they were written, at any depth of nesting, and
what is read can be written.  Two definitions that are written alike are the same.  Only a
native body keeps its class from being written. -/
theorem definitions_round_trip :
    RoundTripsAll Literal.encode Literal.decode (fun _ => []) ∧
    RoundTripsAll Domain.encode Domain.decode (fun _ => []) ∧
    RoundTripsAll Options.encode Options.decode (fun options => [options.maxCallDepth]) ∧
    RoundTripsAll FieldDecl.encode FieldDecl.decode (fun _ => []) ∧
    RoundTripsAll Expr.encode Expr.decode Expr.counts ∧
    RoundTrips Body.encode Body.decode Body.counts (fun body => body.isExpr = false) ∧
    RoundTrips MethodDecl.encode MethodDecl.decode MethodDecl.counts
      (fun method => method.body.isExpr = false) ∧
    RoundTrips ClassDecl.encode ClassDecl.decode ClassDecl.counts ClassDecl.HasNative ∧
    RoundTrips ClassDecl.encodeAll (Json.listOf ClassDecl.decode)
      (List.flatMap ClassDecl.counts) fun decls => ∃ decl ∈ decls, decl.HasNative :=
  ⟨roundTrips_literal, roundTrips_domain, roundTrips_options, roundTrips_field, roundTrips_expr,
    roundTrips_body, roundTrips_method, roundTrips_cls, roundTrips_cls.list⟩

end Lineage
