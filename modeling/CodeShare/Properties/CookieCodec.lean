import CodeShare.Properties.SessionLifecycle

/-! # Cookie values

`parseCookieValue` splits at the dots and reads the first four parts. Whatever stands behind a fourth dot is not
looked at.
-/

namespace CodeShare.Access
open Substitution
set_option autoImplicit false

variable (options : AccessServiceOptions)

/-- What is signed. -/
def cookiePayload (sessionId token : JsString) : JsString := js "v1" ++ 46 :: (sessionId ++ 46 :: token)

/-- The payload, a signature that `timingSafeStringEqual` takes for its own, and nothing or a dot and anything. -/
structure Signed (sessionId token signature rest value : JsString) : Prop where
  value_eq : value = cookiePayload sessionId token ++ 46 :: (signature ++ rest)
  undotted : 46 ∉ signature
  sameOctets : utf8Encode signature = utf8Encode (sign options (cookiePayload sessionId token))
  rest_eq : rest = [] ∨ ∃ more, rest = 46 :: more

/-- The cookie value is not that of the session, but continues it, or has another signature of the same octets. -/
def Altered (sessionId token value : JsString) : Prop :=
  ∃ signature rest, Signed options sessionId token signature rest value ∧
    (signature ≠ sign options (cookiePayload sessionId token) ∨ rest ≠ [])

variable {options} {sessionId token value : JsString}

theorem cookiePayload_eq (sessionId token : JsString) :
    js "v1" ++ js "." ++ sessionId ++ js "." ++ token = cookiePayload sessionId token := by
  have hdot : js "." = [46] := by decide
  rw [hdot, cookiePayload]
  simp

theorem createCookieValue_eq (sessionId token : JsString) : createCookieValue options sessionId token =
    cookiePayload sessionId token ++ 46 :: sign options (cookiePayload sessionId token) := by
  have hdot : js "." = [46] := by decide
  unfold createCookieValue
  dsimp only
  rw [cookiePayload_eq, hdot, List.append_assoc, List.singleton_append]

theorem utf8Encode_ne_nil (h : value ≠ []) : utf8Encode value ≠ [] := by
  have hunits (c : ℕ) : utf8Units c ≠ [] := by
    unfold utf8Units
    split_ifs <;> exact List.cons_ne_nil _ _
  have hpoints : codePoints value ≠ [] := by
    match value, h with
    | [c], _ => simp [codePoints]
    | c :: d :: rest, _ =>
      rw [codePoints]
      split_ifs
      · exact List.cons_ne_nil _ _
      · exact List.cons_ne_nil _ _
  obtain ⟨c, points, hcons⟩ := List.exists_cons_of_ne_nil hpoints
  rw [utf8Encode, hcons, List.flatMap_cons]
  exact fun hnil => hunits _ (List.append_eq_nil_iff.mp hnil).1

theorem sign_nonempty (payload : JsString) : sign options payload ≠ [] :=
  (options.crypto.hmacBase64url options.sessionSecret payload).nonempty

theorem Signed.signature_ne_nil {signature rest : JsString} (h : Signed options sessionId token signature rest value) :
    signature ≠ [] := by
  rintro rfl
  apply utf8Encode_ne_nil (sign_nonempty (cookiePayload sessionId token))
  exact h.sameOctets.symm

/-- The first part of a split text, and the text behind it. -/
theorem of_splitOn_eq_cons {part : JsString} {more : List JsString} (h : value.splitOn 46 = part :: more) :
    46 ∉ part ∧ ((more = [] ∧ value = part) ∨ ∃ rest, value = part ++ 46 :: rest ∧ rest.splitOn 46 = more) := by
  by_cases hmem : 46 ∈ value
  · obtain ⟨first, rest, rfl, hfirst⟩ := List.eq_append_cons_of_mem hmem
    rw [List.splitOn_append_cons_self_of_not_mem hfirst] at h
    obtain ⟨rfl, hrest⟩ := List.cons.inj h
    exact ⟨hfirst, Or.inr ⟨rest, rfl, hrest⟩⟩
  · rw [List.splitOn_eq_singleton hmem] at h
    obtain ⟨rfl, hmore⟩ := List.cons.inj h
    exact ⟨hmem, Or.inl ⟨hmore.symm, rfl⟩⟩

/-- Another part follows. -/
theorem of_splitOn_eq_cons_cons {part next : JsString} {more : List JsString}
    (h : value.splitOn 46 = part :: next :: more) :
    46 ∉ part ∧ ∃ rest, value = part ++ 46 :: rest ∧ rest.splitOn 46 = next :: more := by
  obtain ⟨hpart, ⟨hnil, -⟩ | hrest⟩ := of_splitOn_eq_cons h
  · exact absurd hnil (List.cons_ne_nil _ _)
  · exact ⟨hpart, hrest⟩

/-- **What is accepted** for a session id and a token. -/
theorem parseCookieValue_eq_some (hid : sessionId ≠ []) (htoken : token ≠ []) (hid' : 46 ∉ sessionId)
    (htoken' : 46 ∉ token) : parseCookieValue options value = some (sessionId, token) ↔
      ∃ signature rest, Signed options sessionId token signature rest value := by
  constructor
  · intro h
    unfold parseCookieValue at h
    split at h
    · rename_i version id tok signature more hsplit
      dsimp only at h
      split_ifs at h with hmissing hequal
      obtain ⟨rfl, rfl⟩ := Prod.mk.inj (Option.some.inj h)
      rw [not_or, not_or, not_or, not_not] at hmissing
      obtain ⟨rfl, -, -, -⟩ := hmissing
      rw [cookiePayload_eq] at hequal
      obtain ⟨-, afterVersion, rfl, hafterVersion⟩ := of_splitOn_eq_cons_cons hsplit
      obtain ⟨-, afterId, rfl, hafterId⟩ := of_splitOn_eq_cons_cons hafterVersion
      obtain ⟨-, afterToken, rfl, hafterToken⟩ := of_splitOn_eq_cons_cons hafterId
      obtain ⟨hundotted, hlast⟩ := of_splitOn_eq_cons hafterToken
      have hrest : ∃ rest, afterToken = signature ++ rest ∧ (rest = [] ∨ ∃ more, rest = 46 :: more) := by
        rcases hlast with ⟨-, rfl⟩ | ⟨rest, rfl, -⟩
        · exact ⟨[], (List.append_nil _).symm, Or.inl rfl⟩
        · exact ⟨46 :: rest, rfl, Or.inr ⟨rest, rfl⟩⟩
      obtain ⟨rest, rfl, hrest⟩ := hrest
      refine ⟨signature, rest, ?_, hundotted, of_decide_eq_true hequal, hrest⟩
      unfold cookiePayload
      simp
    · cases h
  · rintro ⟨signature, rest, hsigned⟩
    have hversion : 46 ∉ js "v1" := by decide
    have hlast : ∃ more, (signature ++ rest).splitOn 46 = signature :: more := by
      rcases hsigned.rest_eq with rfl | ⟨more, rfl⟩
      · rw [List.append_nil]
        exact ⟨[], List.splitOn_eq_singleton hsigned.undotted⟩
      · exact ⟨_, List.splitOn_append_cons_self_of_not_mem hsigned.undotted _⟩
    obtain ⟨more, hmore⟩ := hlast
    have hsplit : value.splitOn 46 = js "v1" :: sessionId :: token :: signature :: more := by
      rw [hsigned.value_eq, cookiePayload, List.append_assoc, List.cons_append, List.append_assoc, List.cons_append,
        List.splitOn_append_cons_self_of_not_mem hversion, List.splitOn_append_cons_self_of_not_mem hid',
        List.splitOn_append_cons_self_of_not_mem htoken', hmore]
    have hequal : timingSafeStringEqual signature (sign options (cookiePayload sessionId token)) = true :=
      decide_eq_true hsigned.sameOctets
    unfold parseCookieValue
    rw [hsplit]
    dsimp only
    rw [cookiePayload_eq, if_neg, if_pos hequal]
    rw [not_or, not_or, not_or, not_not]
    exact ⟨rfl, hid, htoken, hsigned.signature_ne_nil⟩

/-- **The codec is exact but for these**: no other string than the session's cookie value is accepted for the
session id and the token, save those that continue it behind a dot, or whose signature has the same octets. -/
theorem cookie_codec_exact_iff (hid : sessionId ≠ []) (htoken : token ≠ []) (hid' : 46 ∉ sessionId)
    (htoken' : 46 ∉ token) :
    (parseCookieValue options value = some (sessionId, token) ↔ value = createCookieValue options sessionId token) ↔
      ¬ Altered options sessionId token value := by
  rw [parseCookieValue_eq_some hid htoken hid' htoken', createCookieValue_eq]
  constructor
  · rintro hexact ⟨signature, rest, hsigned, hother⟩
    have hvalue := hexact.mp ⟨signature, rest, hsigned⟩
    rw [hsigned.value_eq] at hvalue
    have htail : signature ++ rest = sign options (cookiePayload sessionId token) :=
      (List.cons.inj (List.append_cancel_left hvalue)).2
    -- the signature has no dot, so nothing can stand behind the one that is compared
    have hrest : rest = [] := by
      obtain hnil | ⟨more, rfl⟩ := hsigned.rest_eq
      · exact hnil
      · refine absurd ?_ (sign_undotted options (cookiePayload sessionId token))
        rw [← htail]
        simp
    rw [hrest, List.append_nil] at htail
    rcases hother with hother | hother
    · exact hother htail
    · exact hother hrest
  · intro hunaltered
    constructor
    · rintro ⟨signature, rest, hsigned⟩
      have hsame : ¬ (signature ≠ sign options (cookiePayload sessionId token) ∨ rest ≠ []) :=
        fun hother => hunaltered ⟨signature, rest, hsigned, hother⟩
      rw [not_or, not_not, not_not] at hsame
      obtain ⟨rfl, rfl⟩ := hsame
      rw [hsigned.value_eq, List.append_nil]
    · intro hvalue
      refine ⟨sign options (cookiePayload sessionId token), [], ?_, sign_undotted options _, rfl, Or.inl rfl⟩
      rw [hvalue, List.append_nil]

/-- The value of a session's cookie. -/
def exampleCookieValue : JsString := js "v1.3f2504e0-4f89-41d3-9a0c-0305e82c3301.0011aabb." ++
  js "_ym8iXXEnvGQC1uunwziYeCgLzp-LGRfBErpDzjy1pU"

theorem exampleCookieValue_eq :
    createCookieValue exampleAccessOptions (js "3f2504e0-4f89-41d3-9a0c-0305e82c3301") (js "0011aabb") =
      exampleCookieValue := by
  decide +kernel

/-- A cookie value that another segment follows is accepted. -/
theorem continued_cookie_accepted :
    parseCookieValue exampleAccessOptions (exampleCookieValue ++ js ".x") =
        some (js "3f2504e0-4f89-41d3-9a0c-0305e82c3301", js "0011aabb") ∧
      exampleCookieValue ++ js ".x" ≠
        createCookieValue exampleAccessOptions (js "3f2504e0-4f89-41d3-9a0c-0305e82c3301") (js "0011aabb") := by
  refine ⟨by decide +kernel, fun h => ?_⟩
  rw [exampleCookieValue_eq] at h
  exact absurd (List.append_right_eq_self.mp h) (by decide)

/-- The session's own cookie value is read as the session. -/
theorem cookie_codec_exact_iff_example :
    (parseCookieValue exampleAccessOptions exampleCookieValue =
          some (js "3f2504e0-4f89-41d3-9a0c-0305e82c3301", js "0011aabb") ↔
        exampleCookieValue =
          createCookieValue exampleAccessOptions (js "3f2504e0-4f89-41d3-9a0c-0305e82c3301") (js "0011aabb")) ∧
      ¬ Altered exampleAccessOptions (js "3f2504e0-4f89-41d3-9a0c-0305e82c3301") (js "0011aabb")
        exampleCookieValue := by
  have hexact : parseCookieValue exampleAccessOptions exampleCookieValue =
        some (js "3f2504e0-4f89-41d3-9a0c-0305e82c3301", js "0011aabb") ↔
      exampleCookieValue =
        createCookieValue exampleAccessOptions (js "3f2504e0-4f89-41d3-9a0c-0305e82c3301") (js "0011aabb") := by
    refine iff_of_true ?_ exampleCookieValue_eq.symm
    decide +kernel
  refine ⟨hexact, ?_⟩
  apply (cookie_codec_exact_iff (by decide) (by decide) (by decide) (by decide)).mp
  exact hexact

end CodeShare.Access
