/-
  MasterAgent.Plugins.Auth

  The three auth plugins (`ma/plugins/auth`).  Each reads the role and a scope
  claim from the identity's raw claims, which are untyped JSON, and the scope
  parameter from biz_params; `scopeAuth` is their common body.
-/

import MasterAgent.Core.Graph.State
import MasterAgent.Core.Topic.Config
import Mathlib.Data.List.Lex

namespace MasterAgent

/-- Rejection with a code and a message. -/
def AuthResult.reject (code message : PyStr) : AuthResult where
  passed := false
  rejectCode := some code
  rejectMessage := some message

/-- What distinguishes one auth plugin from another. -/
structure ScopeRule where
  /-- `role == required`, or `role in allowed`; the value may be unhashable. -/
  roleOk : Json → Except Exn Bool
  roleMessage : PyStr
  param : PyStr
  claim : PyStr
  missingMessage : PyStr
  deniedMessage : PyStr → PyStr

/-- The common body of the `authorize` methods. -/
def scopeAuth (rule : ScopeRule) (state : GraphState) : Except Exn AuthResult :=
  match state.identity with
  | none => .ok (.reject (py "FORBIDDEN_TOPIC") (py "无法识别用户身份。"))
  | some identity =>
      let claims := identity.rawClaims
      let role := (Json.field (py "role") claims).getD .null
      match rule.roleOk role with
      | .error e => .error e
      | .ok false => .ok (.reject (py "FORBIDDEN_TOPIC") rule.roleMessage)
      | .ok true =>
          let allowed := (Json.field rule.claim claims).getD (.arr [])
          match state.bizParams.get rule.param with
          | .error e => .error e
          | .ok none => .ok (.reject (py "FORBIDDEN_SCOPE") rule.missingMessage)
          | .ok (some .null) => .ok (.reject (py "FORBIDDEN_SCOPE") rule.missingMessage)
          | .ok (some (.str scope)) => match allowed.contains scope with
              | .error e => .error e
              | .ok false => .ok (.reject (py "FORBIDDEN_SCOPE") (rule.deniedMessage scope))
              | .ok true => .ok {
                  passed := true
                  userCtx := some (.obj
                    [(py "role", role), (rule.claim, allowed), (rule.param, .str scope)]) }
          -- no biz_params model admits a value that is neither a string nor null
          | .ok (some _) => .error .typeError

/-- `role == required`. -/
def roleIs (required : PyStr) (role : Json) : Except Exn Bool := .ok (role.isStr required)

/-- `role in allowed_roles`, for a set of strings. -/
def roleAmong (allowed : List PyStr) (role : Json) : Except Exn Bool :=
  if role.hashable then .ok (allowed.any fun r => role.isStr r) else .error .typeError

/-- `role` must be the required role, `region` among `regions`. -/
def RepresentativeAuth.rule (requiredRole : PyStr) : ScopeRule where
  roleOk := roleIs requiredRole
  roleMessage := py "该专题仅限 " ++ requiredRole ++ py " 角色访问。"
  param := py "region"
  claim := py "regions"
  missingMessage := py "请求缺少 region 参数。"
  deniedMessage := fun region => py "您无权访问 " ++ region ++ py " 大区数据。"

/-- `RepresentativeAuth.authorize`. -/
def RepresentativeAuth.authorize (requiredRole : PyStr) : GraphState → Except Exn AuthResult :=
  scopeAuth (rule requiredRole)

/-- The allowed roles as the rejection message lists them. -/
def sortedRoles (allowedRoles : List PyStr) : PyStr :=
  List.intercalate (py "/") (allowedRoles.dedup.mergeSort fun a b => decide (a ≤ b))

/-- `role` must be an allowed role, `business_unit` among `business_units`. -/
def JingyingAuth.rule (allowedRoles : List PyStr) : ScopeRule where
  roleOk := roleAmong allowedRoles
  roleMessage := py "该专题仅限 " ++ sortedRoles allowedRoles ++ py " 角色访问。"
  param := py "business_unit"
  claim := py "business_units"
  missingMessage := py "请求缺少 business_unit 参数。"
  deniedMessage := fun unit => py "您无权访问 " ++ unit ++ py " 业务单元数据。"

/-- `JingyingAuth.authorize`. -/
def JingyingAuth.authorize (allowedRoles : List PyStr) : GraphState → Except Exn AuthResult :=
  scopeAuth (rule allowedRoles)

/-- `role` must be the required role, `contract_id` among `contract_ids`. -/
def SalesContractAuth.rule (requiredRole : PyStr) : ScopeRule where
  roleOk := roleIs requiredRole
  roleMessage := py "该专题仅限 " ++ requiredRole ++ py " 角色访问。"
  param := py "contract_id"
  claim := py "contract_ids"
  missingMessage := py "请求缺少 contract_id 参数。"
  deniedMessage := fun contract => py "您不是 " ++ contract ++ py " 合同的责任人。"

/-- `SalesContractAuth.authorize`. -/
def SalesContractAuth.authorize (requiredRole : PyStr) : GraphState → Except Exn AuthResult :=
  scopeAuth (rule requiredRole)

-- ============================================================================
-- When authorisation is exact
-- ============================================================================

/-- The string parameter is an element of the JSON array under the claim. -/
def ScopeRule.Granted (rule : ScopeRule) (claims : List (PyStr × Json)) (bizParams : Json) :
    Prop :=
  ∃ scope items, bizParams.get rule.param = .ok (some (.str scope)) ∧
    Json.field rule.claim claims = some (.arr items) ∧ .str scope ∈ items

/-- A result is returned; it passes exactly when the role and the scope
    condition hold, and a rejection names the condition that fails. -/
def ExactlyAuthorised (roleOk scopeOk : Prop) (out : Except Exn AuthResult) : Prop :=
  ∃ r, out = .ok r ∧ (r.passed = true ↔ roleOk ∧ scopeOk) ∧
    (¬ roleOk → r.rejectCode = some (py "FORBIDDEN_TOPIC")) ∧
    (roleOk → ¬ scopeOk → r.rejectCode = some (py "FORBIDDEN_SCOPE"))

/-- The scope claim, if the request has a scope to look up in it, is absent or
    an array, or a string or object in which `in` does not find the scope. -/
def ScopeRule.PlainClaim (rule : ScopeRule) (claims : List (PyStr × Json))
    (bizParams : Json) : Prop :=
  ∀ scope, bizParams.get rule.param = .ok (some (.str scope)) →
    match Json.field rule.claim claims with
    | none => True
    | some (.arr _) => True
    | some (.str t) => ¬ scope <:+: t
    | some (.obj kvs) => scope ∉ kvs.map Prod.fst
    | some _ => False

section Exactness

variable {rule : ScopeRule} {state : GraphState} {identity : AuthnIdentity} {roleOk : Prop}

/-- The role a rule sees. -/
def roleClaim (identity : AuthnIdentity) : Json :=
  (Json.field (py "role") identity.rawClaims).getD .null

theorem scopeAuth_of_role_error (hid : state.identity = some identity) {e : Exn}
    (hrole : rule.roleOk (roleClaim identity) = .error e) :
    scopeAuth rule state = .error e := by
  unfold roleClaim at hrole
  simp [scopeAuth, hid, hrole]

theorem exactly_of_role_denied (hid : state.identity = some identity)
    (hrole : rule.roleOk (roleClaim identity) = .ok false) (hno : ¬ roleOk)
    (scopeOk : Prop) : ExactlyAuthorised roleOk scopeOk (scopeAuth rule state) := by
  unfold roleClaim at hrole
  refine ⟨.reject (py "FORBIDDEN_TOPIC") rule.roleMessage, by simp [scopeAuth, hid, hrole],
    ?_, fun _ => rfl, fun h => absurd h hno⟩
  simp [AuthResult.reject, hno]

/-- A missing scope parameter is a rejection of the scope. -/
theorem exactly_of_scope_missing (hid : state.identity = some identity)
    (hrole : rule.roleOk (roleClaim identity) = .ok true) (hyes : roleOk)
    {o : Option Json} (hget : state.bizParams.get rule.param = .ok o)
    (ho : o = none ∨ o = some .null) :
    ExactlyAuthorised roleOk (rule.Granted identity.rawClaims state.bizParams)
      (scopeAuth rule state) := by
  have hngr : ¬ rule.Granted identity.rawClaims state.bizParams := by
    rintro ⟨scope, items, hscope, -, -⟩
    rw [hget] at hscope
    rcases ho with rfl | rfl <;> simp at hscope
  unfold roleClaim at hrole
  refine ⟨.reject (py "FORBIDDEN_SCOPE") rule.missingMessage, ?_, ?_,
    fun h => absurd hyes h, fun _ _ => rfl⟩
  · rcases ho with rfl | rfl <;> simp [scopeAuth, hid, hrole, hget]
  · simp [AuthResult.reject, hngr]

/-- With a role that passes and a scope to look up, the result is exact when
    the scope claim is plain, and not otherwise. -/
theorem exactly_iff_of_scope (hid : state.identity = some identity)
    (hrole : rule.roleOk (roleClaim identity) = .ok true) (hyes : roleOk) {scope : PyStr}
    (hget : state.bizParams.get rule.param = .ok (some (.str scope))) :
    ExactlyAuthorised roleOk (rule.Granted identity.rawClaims state.bizParams)
        (scopeAuth rule state) ↔
      rule.PlainClaim identity.rawClaims state.bizParams := by
  have hgranted : rule.Granted identity.rawClaims state.bizParams ↔
      ∃ items, Json.field rule.claim identity.rawClaims = some (.arr items) ∧
        .str scope ∈ items := by
    constructor
    · rintro ⟨scope', items, hs, hc, hm⟩
      rw [hget] at hs
      simp only [Except.ok.injEq, Option.some.injEq, Json.str.injEq] at hs
      exact ⟨items, hc, hs ▸ hm⟩
    · rintro ⟨items, hc, hm⟩
      exact ⟨scope, items, hget, hc, hm⟩
  have hplain : rule.PlainClaim identity.rawClaims state.bizParams ↔
      (match Json.field rule.claim identity.rawClaims with
        | none => True
        | some (.arr _) => True
        | some (.str t) => ¬ scope <:+: t
        | some (.obj kvs) => scope ∉ kvs.map Prod.fst
        | some _ => False) := by
    constructor
    · exact fun h => h scope hget
    · intro h scope' hs
      rw [hget] at hs
      simp only [Except.ok.injEq, Option.some.injEq, Json.str.injEq] at hs
      exact hs ▸ h
  unfold roleClaim at hrole
  rw [hplain, hgranted]
  simp only [ExactlyAuthorised, scopeAuth, hid, hrole, hget]
  -- one case for each JSON type the scope claim can have
  cases hc : Json.field rule.claim identity.rawClaims with
  | none => simp [Json.contains, AuthResult.reject, hyes]
  | some v =>
      cases v with
      | arr items =>
          by_cases hm : .str scope ∈ items
          · have hany : items.any (Json.isStr scope) = true := by
              rw [List.any_eq_true]
              exact ⟨_, hm, by simp⟩
            simp [Json.contains, hany, hyes, hm]
          · have hany : items.any (Json.isStr scope) = false := by
              rw [List.any_eq_false]
              intro x hx hsx
              exact hm (Json.isStr_eq_true.mp hsx ▸ hx)
            simp [Json.contains, hany, AuthResult.reject, hyes, hm]
      | str t => by_cases hin : scope <:+: t <;> simp [Json.contains, hin, AuthResult.reject, hyes]
      | obj kvs =>
          by_cases hin : scope ∈ kvs.map Prod.fst <;>
            simp only [Json.contains, Option.getD_some, hin] <;>
              simp [AuthResult.reject, hyes]
      | null => simp [Json.contains]
      | bool b => simp [Json.contains]
      | int n => simp [Json.contains]
      | float x => simp [Json.contains]

/-- For a role test that does not raise, the result is exact if and only if the
    scope claim is plain or the role fails anyway. -/
theorem scopeAuth_exact_iff {m : BizParamsModel} (hid : state.identity = some identity)
    (hacc : m.accepts state.bizParams = true) {b : Bool}
    (hrole : rule.roleOk (roleClaim identity) = .ok b) (hb : b = true ↔ roleOk) :
    ExactlyAuthorised roleOk (rule.Granted identity.rawClaims state.bizParams)
        (scopeAuth rule state) ↔
      (roleOk → rule.PlainClaim identity.rawClaims state.bizParams) := by
  cases b with
  | false =>
      have hno : ¬ roleOk := by simpa using hb
      exact ⟨fun _ h => absurd h hno, fun _ => exactly_of_role_denied hid hrole hno _⟩
  | true =>
      have hyes : roleOk := hb.mp rfl
      obtain ⟨kvs, hkvs, hvals⟩ := BizParamsModel.accepts_obj hacc
      have hget : state.bizParams.get rule.param = .ok (Json.field rule.param kvs) := by
        rw [hkvs]
        rfl
      have hmissing : ∀ o, Json.field rule.param kvs = o → o = none ∨ o = some .null →
          (ExactlyAuthorised roleOk (rule.Granted identity.rawClaims state.bizParams)
              (scopeAuth rule state) ↔
            (roleOk → rule.PlainClaim identity.rawClaims state.bizParams)) := by
        rintro o rfl ho
        refine ⟨fun _ _ scope hs => ?_, fun _ => exactly_of_scope_missing hid hrole hyes hget ho⟩
        rw [hget, Except.ok.injEq] at hs
        rcases ho with ho | ho <;> simp [ho] at hs
      cases hf : Json.field rule.param kvs with
      | none => exact hmissing none hf (Or.inl rfl)
      | some x =>
          rcases hvals _ _ hf with rfl | ⟨scope, rfl⟩
          · exact hmissing _ hf (Or.inr rfl)
          · rw [hf] at hget
            rw [exactly_iff_of_scope hid hrole hyes hget]
            exact ⟨fun h _ => h, fun h => h hyes⟩

end Exactness

theorem roleIs_eq (required : PyStr) (identity : AuthnIdentity) :
    roleIs required (roleClaim identity) = .ok ((roleClaim identity).isStr required) ∧
      ((roleClaim identity).isStr required = true ↔
        Json.field (py "role") identity.rawClaims = some (.str required)) := by
  refine ⟨rfl, ?_⟩
  rw [Json.isStr_eq_true, roleClaim]
  cases Json.field (py "role") identity.rawClaims <;> simp

theorem roleAmong_eq (allowed : List PyStr) (identity : AuthnIdentity)
    (h : (roleClaim identity).hashable = true) :
    roleAmong allowed (roleClaim identity)
        = .ok (allowed.any fun r => (roleClaim identity).isStr r) ∧
      ((allowed.any fun r => (roleClaim identity).isStr r) = true ↔
        ∃ r ∈ allowed, Json.field (py "role") identity.rawClaims = some (.str r)) := by
  refine ⟨by rw [roleAmong, if_pos h], ?_⟩
  simp only [List.any_eq_true, Json.isStr_eq_true, roleClaim]
  cases Json.field (py "role") identity.rawClaims <;> simp

/-- When the three plugins authorise exactly: for the single-role plugins, if
    and only if the role fails or the scope claim is plain; for the allowed-roles
    plugin the role claim must also be hashable. -/
theorem authorize_exact_iff (requiredRole : PyStr) (allowedRoles : List PyStr)
    (state : GraphState) (identity : AuthnIdentity) (m : BizParamsModel)
    (hid : state.identity = some identity) (hacc : m.accepts state.bizParams = true) :
    (ExactlyAuthorised
        (Json.field (py "role") identity.rawClaims = some (.str requiredRole))
        ((RepresentativeAuth.rule requiredRole).Granted identity.rawClaims state.bizParams)
        (RepresentativeAuth.authorize requiredRole state) ↔
      (Json.field (py "role") identity.rawClaims = some (.str requiredRole) →
        (RepresentativeAuth.rule requiredRole).PlainClaim identity.rawClaims
          state.bizParams)) ∧
    (ExactlyAuthorised
        (∃ r ∈ allowedRoles, Json.field (py "role") identity.rawClaims = some (.str r))
        ((JingyingAuth.rule allowedRoles).Granted identity.rawClaims state.bizParams)
        (JingyingAuth.authorize allowedRoles state) ↔
      (roleClaim identity).hashable = true ∧
        ((∃ r ∈ allowedRoles, Json.field (py "role") identity.rawClaims = some (.str r)) →
          (JingyingAuth.rule allowedRoles).PlainClaim identity.rawClaims
            state.bizParams)) ∧
    (ExactlyAuthorised
        (Json.field (py "role") identity.rawClaims = some (.str requiredRole))
        ((SalesContractAuth.rule requiredRole).Granted identity.rawClaims state.bizParams)
        (SalesContractAuth.authorize requiredRole state) ↔
      (Json.field (py "role") identity.rawClaims = some (.str requiredRole) →
        (SalesContractAuth.rule requiredRole).PlainClaim identity.rawClaims
          state.bizParams)) := by
  obtain ⟨hrole, hb⟩ := roleIs_eq requiredRole identity
  refine ⟨scopeAuth_exact_iff hid hacc hrole hb, ?_, scopeAuth_exact_iff hid hacc hrole hb⟩
  by_cases hh : (roleClaim identity).hashable = true
  · obtain ⟨hrole', hb'⟩ := roleAmong_eq allowedRoles identity hh
    rw [JingyingAuth.authorize, scopeAuth_exact_iff hid hacc hrole' hb']
    exact ⟨fun h => ⟨hh, h⟩, fun h => h.2⟩
  · -- the membership test raises before anything is decided
    have hraise : JingyingAuth.authorize allowedRoles state = .error .typeError := by
      apply scopeAuth_of_role_error hid
      rw [show (JingyingAuth.rule allowedRoles).roleOk = roleAmong allowedRoles from rfl,
        roleAmong, if_neg hh]
    rw [hraise]
    constructor
    · rintro ⟨r, hr, -⟩
      cases hr
    · rintro ⟨hh', -⟩
      exact absurd hh' hh

/-- A request with the given claims and biz_params. -/
def authState (claims : List (PyStr × Json)) (bizParams : List (PyStr × Json)) : GraphState where
  requestId := .str (py "req_1")
  bizId := py "topic"
  threadId := .str (py "th_1")
  identity := some { w3Account := py "alice", rawClaims := claims }
  question := .str (py "q")
  bizParams := .obj bizParams
  assistantMessageId := py "msg_1"

/-- A biz_params model with the scope parameters of the three plugins. -/
def scopeModel : BizParamsModel where
  fields := ⟨[(py "region", false), (py "business_unit", false), (py "contract_id", false)],
    by decide⟩

/-- The role passes and the region is listed: all three conditions are met. -/
theorem authorize_exact_iff_listed_region :
    scopeModel.accepts (authState
        [(py "role", .str (py "REP")), (py "regions", .arr [.str (py "huadong")])]
        [(py "region", .str (py "huadong"))]).bizParams = true ∧
      ExactlyAuthorised
        (Json.field (py "role")
          [(py "role", .str (py "REP")), (py "regions", .arr [.str (py "huadong")])]
            = some (.str (py "REP")))
        ((RepresentativeAuth.rule (py "REP")).Granted
          [(py "role", .str (py "REP")), (py "regions", .arr [.str (py "huadong")])]
          (.obj [(py "region", .str (py "huadong"))]))
        (RepresentativeAuth.authorize (py "REP") (authState
          [(py "role", .str (py "REP")), (py "regions", .arr [.str (py "huadong")])]
          [(py "region", .str (py "huadong"))])) := by
  have hacc : scopeModel.accepts (authState
      [(py "role", .str (py "REP")), (py "regions", .arr [.str (py "huadong")])]
      [(py "region", .str (py "huadong"))]).bizParams = true := by decide
  refine ⟨hacc, (authorize_exact_iff (py "REP") [] _ _ scopeModel rfl hacc).1.mpr ?_⟩
  intro _ scope _
  trivial

/-- On accepted biz_params, a regions claim that is a string passes on a
    substring, one that is null raises, and so does a role claim that is an array. -/
theorem authorize_not_exact :
    scopeModel.accepts (.obj [(py "region", .str (py "hua"))]) = true ∧
    scopeModel.accepts (.obj [(py "business_unit", .str (py "bu_1"))]) = true ∧
    (∃ r, RepresentativeAuth.authorize (py "REP") (authState
        [(py "role", .str (py "REP")), (py "regions", .str (py "huadong"))]
        [(py "region", .str (py "hua"))]) = .ok r ∧ r.passed = true ∧
      ¬ (RepresentativeAuth.rule (py "REP")).Granted
        [(py "role", .str (py "REP")), (py "regions", .str (py "huadong"))]
        (.obj [(py "region", .str (py "hua"))])) ∧
    RepresentativeAuth.authorize (py "REP") (authState
        [(py "role", .str (py "REP")), (py "regions", .null)]
        [(py "region", .str (py "hua"))]) = .error .typeError ∧
    JingyingAuth.authorize [py "REP"] (authState
        [(py "role", .arr [.str (py "REP")])]
        [(py "business_unit", .str (py "bu_1"))]) = .error .typeError := by
  refine ⟨by decide, by decide, ⟨_, rfl, rfl, ?_⟩, rfl, rfl⟩
  rintro ⟨scope, items, -, hclaim, -⟩
  cases hclaim

end MasterAgent
