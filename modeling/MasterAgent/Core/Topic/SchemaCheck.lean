/-
  MasterAgent.Core.Topic.SchemaCheck

  The biz_params gate against the schema it is compiled from.  `SatisfiesSchema`
  says what a schema asks of an object; `_compile_biz_params_schema` reads the
  property names and the required names, each for itself, and no keyword but
  `type`.
-/

import MasterAgent.Core.Topic.Compiler

namespace MasterAgent

-- ============================================================================
-- What a schema asks
-- ============================================================================

/-- The entries of `required`. -/
def schemaRequired (schema : List (PyStr × Json)) : List Json :=
  match ((Json.field (py "required") schema).getD (.arr [])).toSet with
  | .ok required => required
  | .error _ => []

/-- The declared properties, each with its own schema. -/
def schemaProperties (schema : List (PyStr × Json)) : List (PyStr × Json) :=
  match ((Json.field (py "properties") schema).getD (.obj [])).items with
  | .ok properties => properties
  | .error _ => []

/-- The names of the declared properties. -/
def schemaNames (schema : List (PyStr × Json)) : List PyStr :=
  (schemaProperties schema).map Prod.fst

/-- What a keyword of a property asks of its value: `type` and `enum`, and any
    `others`. -/
def KeywordHolds (others : PyStr → Json → Json → Prop) (keyword : PyStr) (arg value : Json) :
    Prop :=
  if keyword = py "type" then arg = .str (py "string") → ∃ s, value = .str s
  else if keyword = py "enum" then ∀ allowed, arg = .arr allowed → value ∈ allowed
  else others keyword arg value

/-- The object satisfies the schema. -/
structure SatisfiesSchema (others : PyStr → Json → Json → Prop) (schema kvs : List (PyStr × Json)) :
    Prop where
  required : ∀ r ∈ schemaRequired schema, ∃ k ∈ kvs.map Prod.fst, r = .str k
  strings : ∀ name ∈ schemaNames schema, ∀ value, (name, value) ∈ kvs → ∃ s, value = .str s
  keywords : ∀ name prop, (name, prop) ∈ schemaProperties schema →
    ∀ keywords, prop.items = .ok keywords → ∀ keyword arg, (keyword, arg) ∈ keywords →
      ∀ value, (name, value) ∈ kvs → KeywordHolds others keyword arg value

/-- The schema asks for what its model checks: `required` names the declared
    properties and no others, and no keyword excludes a string. -/
structure Enforceable (others : PyStr → Json → Json → Prop) (schema : List (PyStr × Json)) :
    Prop where
  declared : ∀ r ∈ schemaRequired schema, ∃ name ∈ schemaNames schema, r = .str name
  required : ∀ name ∈ schemaNames schema, .str name ∈ schemaRequired schema
  keywords : ∀ name prop, (name, prop) ∈ schemaProperties schema →
    ∀ keywords, prop.items = .ok keywords → ∀ keyword arg, (keyword, arg) ∈ keywords →
      ∀ s, KeywordHolds others keyword arg (.str s)

-- ============================================================================
-- The compiled model
-- ============================================================================

/-- Each property has its field, required if its name is. -/
theorem compileProperties_get? {required : List Json} {props : List (PyStr × Json)}
    {fields compiled : Dict PyStr Bool}
    (h : compileProperties required props fields = .ok compiled) (name : PyStr) :
    compiled.get? name =
      if name ∈ props.map Prod.fst then some (required.any fun v => v.isStr name)
      else fields.get? name := by
  induction props generalizing fields with
  | nil =>
      rw [compileProperties, Except.ok.injEq] at h
      rw [h]
      rfl
  | cons prop props ih =>
      obtain ⟨name', prop⟩ := prop
      rw [compileProperties] at h
      obtain ⟨propType, -, h⟩ := exists_of_bind_eq_ok h
      obtain ⟨_, -, h⟩ := exists_of_bind_eq_ok h
      rw [ih h, Dict.get?_set]
      simp only [List.map_cons, List.mem_cons]
      by_cases hmem : name ∈ props.map Prod.fst
      · rw [if_pos hmem, if_pos (.inr hmem)]
      · by_cases hname : name' = name
        · rw [if_neg hmem, if_pos hname, if_pos (.inl hname.symm), hname]
        · rw [if_neg hmem, if_neg hname, if_neg]
          rintro (heq | hin)
          · exact hname heq.symm
          · exact hmem hin

section Model

variable {c : TopicCompiler} {schema : List (PyStr × Json)} {m : BizParamsModel}

/-- The fields of the model of a schema. -/
theorem compiled_get? (h : c.compileBizParamsSchema schema = .ok m) (name : PyStr) :
    m.fields.get? name =
      if name ∈ schemaNames schema then
        some ((schemaRequired schema).any fun v => v.isStr name)
      else none := by
  unfold TopicCompiler.compileBizParamsSchema at h
  obtain ⟨-, -, h⟩ := exists_of_bind_eq_ok h
  obtain ⟨required, hrequired, h⟩ := exists_of_bind_eq_ok h
  obtain ⟨properties, hproperties, h⟩ := exists_of_bind_eq_ok h
  obtain ⟨fields, hfields, h⟩ := exists_of_bind_eq_ok h
  obtain ⟨-, -, h⟩ := exists_of_bind_eq_ok h
  cases h
  simp only [schemaNames, schemaRequired, schemaProperties, hrequired, hproperties]
  exact compileProperties_get? hfields name

theorem any_isStr_iff {vs : List Json} {name : PyStr} :
    (vs.any fun v => v.isStr name) = true ↔ .str name ∈ vs := by
  simp only [List.any_eq_true, Json.isStr_eq_true, exists_eq_right]

/-- What the model accepts. -/
theorem accepts_iff (h : c.compileBizParamsSchema schema = .ok m) {kvs : List (PyStr × Json)} :
    m.accepts (.obj kvs) = true ↔
      (∀ name value, (name, value) ∈ kvs → name ∈ schemaNames schema ∧
        ((∃ s, value = .str s) ∨ (value = .null ∧ .str name ∉ schemaRequired schema))) ∧
      ∀ name ∈ schemaNames schema, .str name ∈ schemaRequired schema →
        name ∈ kvs.map Prod.fst := by
  have hvalue : ∀ (required : Bool) (value : Json), BizParamsModel.valueOk required value = true ↔
      (∃ s, value = .str s) ∨ (value = .null ∧ required = false) := by
    intro required value
    cases value <;> simp [BizParamsModel.valueOk]
  have hentry : ∀ name required, (name, required) ∈ m.fields.entries ↔
      m.fields.get? name = some required :=
    fun name required => ⟨Dict.get?_of_mem, Dict.mem_of_find⟩
  have hfalse : ∀ name, ((schemaRequired schema).any fun v => v.isStr name) = false ↔
      .str name ∉ schemaRequired schema := by
    intro name
    rw [← any_isStr_iff, Bool.not_eq_true]
  rw [BizParamsModel.accepts, Bool.and_eq_true, List.all_eq_true, List.all_eq_true]
  refine and_congr ⟨fun hall name value hmem => ?_, fun hall entry hmem => ?_⟩
    ⟨fun hall name hname hrequired => ?_, fun hall field hfield => ?_⟩
  · have hkv := hall (name, value) hmem
    rw [compiled_get? h name] at hkv
    by_cases hname : name ∈ schemaNames schema
    · rw [if_pos hname] at hkv
      refine ⟨hname, ?_⟩
      rw [← hfalse]
      exact (hvalue _ value).mp hkv
    · rw [if_neg hname] at hkv
      cases hkv
  · obtain ⟨name, value⟩ := entry
    obtain ⟨hname, hv⟩ := hall name value hmem
    rw [← hfalse] at hv
    rw [compiled_get? h name, if_pos hname]
    exact (hvalue _ value).mpr hv
  · have hfield := hall (name, true) ((hentry name true).mpr (by
      rw [compiled_get? h name, if_pos hname, any_isStr_iff.mpr hrequired]))
    simpa using hfield
  · obtain ⟨name, required⟩ := field
    rw [hentry, compiled_get? h name] at hfield
    by_cases hname : name ∈ schemaNames schema
    · rw [if_pos hname, Option.some.injEq] at hfield
      cases required with
      | false => rfl
      | true => simpa using hall name hname (any_isStr_iff.mp hfield)
    · rw [if_neg hname] at hfield
      cases hfield

/-- One value for each declared property. -/
def givingAll (schema : List (PyStr × Json)) (value : PyStr → Json) : List (PyStr × Json) :=
  (schemaNames schema).map fun name => (name, value name)

theorem mem_givingAll {value : PyStr → Json} {name : PyStr} {x : Json} :
    (name, x) ∈ givingAll schema value ↔ name ∈ schemaNames schema ∧ x = value name := by
  rw [givingAll, List.mem_map]
  constructor
  · rintro ⟨name', hname, heq⟩
    cases heq
    exact ⟨hname, rfl⟩
  · rintro ⟨hname, rfl⟩
    exact ⟨name, hname, rfl⟩

theorem keys_givingAll (value : PyStr → Json) :
    (givingAll schema value).map Prod.fst = schemaNames schema := by
  rw [givingAll, List.map_map]
  exact List.map_id _

/-- Strings for the required properties, strings or null for the others. -/
theorem accepts_givingAll (h : c.compileBizParamsSchema schema = .ok m) {value : PyStr → Json}
    (hvalue : ∀ name ∈ schemaNames schema, (∃ s, value name = .str s) ∨
      (value name = .null ∧ .str name ∉ schemaRequired schema)) :
    m.accepts (.obj (givingAll schema value)) = true := by
  refine (accepts_iff h).mpr ⟨fun name x hmem => ?_, fun name hname _ => ?_⟩
  · obtain ⟨hname, rfl⟩ := mem_givingAll.mp hmem
    exact ⟨hname, hvalue name hname⟩
  · rwa [keys_givingAll]

end Model

-- ============================================================================
-- Three schemas
-- ============================================================================

/-- A compiler without plugins. -/
def bareCompiler : TopicCompiler := ⟨⟨.empty, .empty, .empty, .empty⟩, fun _ => .ok ()⟩

/-- The string `region`, with more keywords. -/
def regionSchema (required : List PyStr) (keywords : List (PyStr × Json)) : List (PyStr × Json) :=
  [(py "type", .str (py "object")), (py "required", .arr (required.map .str)),
    (py "properties",
      .obj [(py "region", .obj ((py "type", .str (py "string")) :: keywords))])]

end MasterAgent
