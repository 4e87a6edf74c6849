import Mathlib.Data.List.Basic
import Lineage.Proofs.Definition.Reading

/-!
# What decoders accept

The decoder of every shape accepts the documents that follow the grammar, and no others
(`decodes_iff_conforms`).  For one node this is the rule of its shape, whose places below
the node have to be accepted in turn.
-/

set_option autoImplicit false

namespace Lineage

/-- The decoder of the shape gives something for the document. -/
def Shape.Decodes (shape : Shape) (json : Json) : Prop := (shape.decode json).isSome = true

/-! ## Parts of a node -/

section Parts
variable {α : Type} {part : Part} {given : String → Option Json}

theorem isSome_read_iff
    (filled : (part.absent.all fun json => (part.shape.decode json).isSome) = true) :
    (part.read given).isSome = true ↔
      (∀ node, given part.name = some node → part.shape.Decodes node) ∧
        (given part.name = none → part.absent ≠ none) := by
  unfold Part.read
  cases stands : given part.name with
  | some node => simp [Shape.Decodes]
  | none =>
      cases isAbsent : part.absent with
      | none => simp
      | some json =>
          rw [isAbsent] at filled
          simpa using filled

theorem isSome_assemble_iff {parts : List Part} (build : Builder α parts) :
    (assemble given parts build).isSome = true ↔
      ∀ part ∈ parts, (part.read given).isSome = true := by
  induction parts with
  | nil => exact iff_of_true rfl nofun
  | cons part rest ih =>
      rw [List.forall_mem_cons, assemble]
      cases part.read given with
      | none => simp
      | some value => simpa using ih (build value)

end Parts

/-! ## Nodes -/

section Record
variable {α : Type} {decode : Json → Option α} {parts : List Part}
  (governed : (Rule.record parts).Governs decode)
include governed

theorem isSome_object_iff (members : List (String × Json)) :
    (decode (.obj members)).isSome = true ↔
      (∀ part ∈ parts, (members.map Prod.fst).count part.name ≤ 1) ∧
      (∀ part ∈ parts, part.absent = none → part.name ∈ members.map Prod.fst) ∧
      ∀ part ∈ parts, ∀ node, (part.name, node) ∈ members → part.shape.Decodes node := by
  obtain ⟨distinct, filled, build, reads⟩ := governed
  rw [reads, Json.under?_obj]
  by_cases once : ∀ part ∈ parts, (members.map Prod.fst).count part.name ≤ 1
  · rw [if_pos once, Option.bind_some, isSome_assemble_iff, ← forall₂_and, and_iff_right once]
    refine forall₂_congr fun part known => ?_
    rw [isSome_read_iff (List.all_eq_true.mp filled part known), and_comm]
    refine and_congr ?_ (forall_congr' fun node => ?_)
    · rw [lookup_eq_none_iff_notMem]
      exact not_imp_comm.symm.trans (by rw [not_not])
    · rw [lookup_eq_some_iff_mem (once part known)]
  · rw [if_neg once]
    exact iff_of_false nofun fun all => once all.1

theorem isSome_array_iff (items : List Json) :
    (decode (.arr items)).isSome = true ↔
      items.length ≤ parts.length ∧
      (∀ (index : Nat) part, parts[index]? = some part → items.length ≤ index →
        part.absent ≠ none) ∧
      ∀ (index : Nat) part item, parts[index]? = some part → items[index]? = some item →
        part.shape.Decodes item := by
  obtain ⟨distinct, filled, build, reads⟩ := governed
  rw [reads, Json.under?_arr]
  by_cases fits : items.length ≤ parts.length
  · rw [if_pos fits, Option.bind_some, isSome_assemble_iff, and_iff_right fits]
    have read (index : Nat) (part : Part) (known : parts[index]? = some part) :
        (part.read fun key => ((parts.map (·.name)).zip items).lookup key).isSome = true ↔
          (items.length ≤ index → part.absent ≠ none) ∧
            ∀ item, items[index]? = some item → part.shape.Decodes item := by
      have named : (parts.map (·.name))[index]? = some part.name := by
        rw [List.getElem?_map, known, Option.map_some]
      rw [isSome_read_iff (List.all_eq_true.mp filled part (List.mem_of_getElem? known)),
        AssocMap.lookup_zip distinct index named, List.getElem?_eq_none_iff, and_comm]
    constructor
    · intro all
      refine ⟨fun index part known => ?_, fun index part item known => ?_⟩
      · exact ((read index part known).mp (all part (List.mem_of_getElem? known))).1
      · exact ((read index part known).mp (all part (List.mem_of_getElem? known))).2 item
    · rintro ⟨rest, each⟩ part known
      obtain ⟨index, isPart⟩ := List.mem_iff_getElem?.mp known
      refine (read index part isPart).mpr ⟨rest index part isPart, ?_⟩
      exact fun item => each index part item isPart
  · rw [if_neg fits]
    exact iff_of_false nofun fun all => fits all.1

theorem object_or_array_of_isSome {json : Json} (decodes : (decode json).isSome = true) :
    (∃ members, json = .obj members) ∨ ∃ items, json = .arr items := by
  obtain ⟨_, _, build, reads⟩ := governed
  cases json with
  | obj members => exact .inl ⟨members, rfl⟩
  | arr items => exact .inr ⟨items, rfl⟩
  | _ =>
      rw [reads] at decodes
      cases decodes

end Record

theorem isSome_list_iff {α : Type} {decode : Json → Option α} {inner : Shape}
    (governed : (Rule.list inner).Governs decode) (json : Json) :
    (decode json).isSome = true ↔
      ∃ items, json = .arr items ∧ ∀ item ∈ items, inner.Decodes item := by
  obtain ⟨build, reads⟩ := governed
  rw [reads, Option.isSome_map]
  cases json with
  | arr items =>
      simp only [Json.arr.injEq, exists_eq_left']
      exact isSome_mapM_iff items
  | _ => simp [Json.listOf]

theorem isSome_payload_iff {α : Type} {decode : Json → Option α} {orNull : Bool}
    {names : List String} {carrying : List (String × Shape)}
    (chooses : Chooses decode orNull names carrying) {name : String} {inner : Shape}
    (known : (name, inner) ∈ carrying) (node : Json) :
    (decode (.obj [(name, node)])).isSome = true ↔ inner.Decodes node := by
  obtain ⟨build, reads⟩ := chooses.carried name inner known
  rw [reads, Option.isSome_map, Shape.Decodes]

/-! ## Documents -/

section Documents
variable {shape : Shape} {json : Json}

theorem decodes_of_conforms (conforms : Conforms shape json) : shape.Decodes json := by
  induction conforms with
  | scalar rule accepted => exact (governs_of_rule rule _).mpr accepted
  | list rule each ih => exact (isSome_list_iff (governs_of_rule rule) _).mpr ⟨_, rfl, ih⟩
  | object rule once given each ih =>
      exact (isSome_object_iff (governs_of_rule rule) _).mpr ⟨once, given, ih⟩
  | array rule fits rest each ih =>
      exact (isSome_array_iff (governs_of_rule rule) _).mpr ⟨fits, rest, ih⟩
  | null rule => exact (governs_of_rule rule).null
  | bare rule known => exact ((governs_of_rule rule).bare _).mpr known
  | alone rule known =>
      have chooses : Chooses _ _ _ _ := governs_of_rule rule
      rw [Shape.Decodes, chooses.alone _ known]
      exact (chooses.bare _).mpr known
  | payload rule known below ih => exact (isSome_payload_iff (governs_of_rule rule) known _).mpr ih

theorem conforms_of_decodes (decodes : shape.Decodes json) : Conforms shape json := by
  induction size : sizeOf json using Nat.strongRecOn generalizing shape json with
  | ind bound ih =>
      have below {inner : Shape} {node : Json} (smaller : sizeOf node < sizeOf json)
          (read : inner.Decodes node) : Conforms inner node := ih _ (size ▸ smaller) read rfl
      cases rule : shape.rule with
      | scalar accepts => exact .scalar rule ((governs_of_rule rule json).mp decodes)
      | list inner =>
          obtain ⟨items, rfl, each⟩ := (isSome_list_iff (governs_of_rule rule) json).mp decodes
          exact .list rule fun item isItem => below (Json.sizeOf_lt_arr isItem) (each item isItem)
      | record parts =>
          have governed := governs_of_rule rule
          rcases object_or_array_of_isSome governed decodes with ⟨members, rfl⟩ | ⟨items, rfl⟩
          · obtain ⟨once, given, each⟩ := (isSome_object_iff governed members).mp decodes
            refine .object rule once given fun part known node isNode => ?_
            exact below (Json.sizeOf_lt_obj isNode) (each part known node isNode)
          · obtain ⟨fits, rest, each⟩ := (isSome_array_iff governed items).mp decodes
            refine .array rule fits rest fun index part item known isItem => ?_
            have smaller := Json.sizeOf_lt_arr (List.mem_of_getElem? isItem)
            exact below smaller (each index part item known isItem)
      | choice orNull bare carrying =>
          have chooses : Chooses _ _ _ _ := governs_of_rule rule
          obtain ⟨value, read⟩ := Option.isSome_iff_exists.mp decodes
          rcases chooses.only json value read with
            rfl | ⟨name, rfl⟩ | ⟨name, known, rfl⟩ | ⟨name, inner, node, known, rfl⟩
          · have isNull := chooses.null
            rw [read] at isNull
            exact .null (isNull ▸ rule)
          · exact .bare rule ((chooses.bare name).mp decodes)
          · exact .alone rule known
          · have smaller := Json.sizeOf_lt_obj (List.mem_singleton_self (name, node))
            have payloadDecodes := (isSome_payload_iff chooses known node).mp decodes
            exact .payload rule known (below smaller payloadDecodes)

end Documents

/-- A node that is not accepted is not accepted as part of the node above it. -/
theorem Opening.decodes {outer inner : Shape} {plug : Json → Json}
    (opening : Opening outer inner plug) {node : Json} (decodes : outer.Decodes (plug node)) :
    inner.Decodes node := by
  cases opening with
  | item rule before after =>
      obtain ⟨items, same, each⟩ := (isSome_list_iff (governs_of_rule rule) _).mp decodes
      cases same
      exact each node (by simp)
  | @member _ part rule known before after =>
      obtain ⟨_, _, each⟩ := (isSome_object_iff (governs_of_rule rule) _).mp decodes
      exact each part known node (by simp)
  | @element _ part rule before after known =>
      obtain ⟨_, _, each⟩ := (isSome_array_iff (governs_of_rule rule) _).mp decodes
      exact each before.length part node known (by simp)
  | payload rule known => exact (isSome_payload_iff (governs_of_rule rule) known node).mp decodes

theorem Context.decodes {outer inner : Shape} {plug : Json → Json}
    (context : Context outer inner plug) {node : Json} (decodes : outer.Decodes (plug node)) :
    inner.Decodes node := by
  induction context generalizing node with
  | here => exact decodes
  | within surrounding opening ih => exact opening.decodes (ih decodes)

/-- Every decoder accepts exactly the documents that follow the grammar, so one node at any
depth that is not accepted makes the whole document fail.  Only constants, parents and
domains may be null. -/
theorem decoders_accept_grammar :
    (∀ (shape : Shape) (json : Json),
      (shape.decode json).isSome = true ↔ Conforms shape json) ∧
    (∀ (outer inner : Shape) (plug : Json → Json) (node : Json), Context outer inner plug →
      inner.decode node = none → outer.decode (plug node) = none) ∧
    ∀ shape : Shape, (shape.decode .null).isSome = true ↔
      shape = .literal ∨ shape = .textOrNull ∨ shape = .domainOrNull := by
  refine ⟨fun shape json => ⟨conforms_of_decodes, decodes_of_conforms⟩, ?_, ?_⟩
  · intro outer inner plug node context fails
    rw [← Option.not_isSome_iff_eq_none] at fails ⊢
    exact fun decodes => fails (context.decodes decodes)
  · intro shape
    constructor
    · intro decodes
      cases conforms_of_decodes decodes with
      | scalar rule accepted => cases shape <;> cases rule <;> simp_all
      | null rule =>
          cases shape <;> cases rule
          exact .inr (.inr rfl)
    · rintro (rfl | rfl | rfl) <;> rfl

end Lineage
