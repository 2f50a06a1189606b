import Locus.App.Registration
import Locus.Mobile.Device

/-!
# What becomes of an error of the server

The Node server answers an error as `{ success: false, error: text }`. `authStore.register`, the register
screen and the login screen read `error.response.data.error.message`, which is `undefined` of a text, and
fall back to the message of the axios error, or to a text of their own. So the register screen shows that
the request failed with a status code, a known email is not recognised, and the login screen shows the same
text for every error (`auth_errors_disagree`). The screen for a change of password reads `data.error`.
-/

namespace Locus.App

open Lib Server Mobile

/-! ### Errors -/

/-- `text.includes(word)` -/
def includes (text word : String) : Bool := decide (word.toList <:+: text.toList)

/-- `text.toLowerCase()` of the ASCII letters; no other letter becomes one of the words looked for. -/
def toLowerCase (text : String) : String := String.ofList (text.toList.map Char.toLower)

/-- What a promise of the app is rejected with: an `Error`, with the fields of axios and of `register`. -/
structure JsError where
  message : String
  code : Option String := none
  response : Option Response := none
  isAxiosError : Bool := false
  isUserExists : Bool := false
  prefillEmail : Option String := none

/-- `data.error` of a body. -/
def errorOf : Body → Option Json
  | .failure error => some (.str error)
  | _ => none

/-- Neither `null` nor `undefined`. -/
def present : Json → Bool
  | .null => false
  | _ => true

/-- `error?.response?.data?.error?.message`, as the left side of `??`. -/
def nestedMessage (e : JsError) : Option Json :=
  (e.response.bind fun r => (errorOf r.body).bind (·.field? "message")).filter present

section
variable (message : ℕ → String)

/-- The error of axios for an error answer, with the `message` for its status. -/
def answerError (r : Response) : JsError where
  message := message r.status
  code := some (if r.status < 500 then "ERR_BAD_REQUEST" else "ERR_BAD_RESPONSE")
  response := some r
  isAxiosError := true

/-- What a request is rejected with that is answered `r`: this, or what the refresh behind a 401 fails with,
where `refreshed` is the answer to it and `lost` a `TypeError` or the error of an exchange without an answer. -/
def rejection (r refreshed : Response) (lost : JsError) : ApiError → JsError
  | .response _ => answerError message r
  | .refreshResponse .. => answerError message refreshed
  | .noRefreshToken => { message := "No refresh token" }
  | .typeError | .noResponse | .refreshNoResponse => lost

end

/-- `error.response?.data?.error?.message ?? error.message ?? ""` -/
def shownMessage (e : JsError) : Json := (nestedMessage e).getD (.str e.message)

def tellsExists (e : JsError) : Bool :=
  let msgLower := toLowerCase (shownMessage e).toJsString
  e.response.map (·.status) = some 400 &&
    (includes msgLower "exist" || includes msgLower "already" || includes msgLower "registered")

/-- `error.code === "ECONNABORTED" || error.message?.toLowerCase().includes("timeout")` -/
def timedOut (e : JsError) : Bool :=
  e.code = some "ECONNABORTED" || includes (toLowerCase e.message) "timeout"

/-- The `catch` of `authStore.register`: what it throws. -/
def registerCatch (email : String) (e : JsError) : JsError :=
  if e.isAxiosError then
    if tellsExists e then
      { message := if (shownMessage e).truthy then (shownMessage e).toJsString
          else "An account with this email already exists."
        isUserExists := true, prefillEmail := some email }
    else if timedOut e then
      { e with message := "Request timed out. Please check your connection and try again." }
    else if e.response.isNone && e.message ≠ "" then
      { e with message := "Network error. Please check your connection and try again." }
    else e
  else e

structure RegisterShown where
  error : Json
  userExistsEmail : Option String
  login : Option String

/-- The `catch` of `handleStep3`, behind the email of the first step. -/
def handleStep3Catch (email : String) (e : JsError) : RegisterShown where
  error := shownMessage e
  userExistsEmail := if e.isUserExists then some (e.prefillEmail.getD email) else none
  login := if e.isUserExists && e.prefillEmail.getD email ≠ "" then some (e.prefillEmail.getD email) else none

/-- What the `catch` of `onSubmit` of the login screen shows. -/
def loginCatch (e : JsError) : Json :=
  if e.response.map (·.status) = some 404 then
    .str "Use registration instead. This backend does not support login yet."
  else (nestedMessage e).getD (.str "Login failed. Please try again.")

theorem nestedMessage_eq (e : JsError) : nestedMessage e = none := by
  unfold nestedMessage
  cases e.response with
  | none => rfl
  | some r =>
    obtain ⟨status, body⟩ := r
    cases body <;> rfl

/-! ### The error answers of the server -/

section
variable {svc : Services} {env : NodeEnv} {body : Json} {status : ℕ} {text : String}
  {log : List (Prog.Call Stmt Answer Thrown)}

/-- The texts with which `POST /auth/register` refuses. -/
def registerRefusals : List String :=
  ["email required", "password required, min 8 characters", "An account with this email already exists."]

/-- The texts with which `POST /auth/login` refuses. -/
def loginRefusals : List String :=
  ["email and password required", "Invalid email or password",
    "Use registration instead. This account has no password set."]

theorem failure_inj {status' : ℕ} {text' : String}
    (h : (Prog.done (failure status text) : Handler) = .done (failure status' text')) :
    status = status' ∧ text = text' := by simpa [Server.failure] using h

theorem createTokens_refusals {userId : Uuid} {email : String} {r : String × String → Response}
    (hr : ∀ t, (r t).status < 400) (h4xx : 400 ≤ status ∧ status < 500)
    (h : (catch500 (createTokens svc env userId email >>= fun t => pure (r t))).Path log
      (.done (failure status text))) : False := by
  rw [createTokens_bind] at h
  obtain ⟨-, k, hk⟩ | ⟨a, log', -, h⟩ | ⟨err, -, h⟩ := catch500_path h
  · cases hk
  · obtain ⟨-, h⟩ := catch500_pure_path h
    have hstatus := hr (svc.sign ⟨userId, email⟩ env.now, env.randomHex)
    rw [← Prog.done.inj h] at hstatus
    have hle : status < 400 := hstatus
    omega
  · obtain ⟨hstatus, -⟩ := failure_inj h
    omega

theorem refusal_of_done {error : String} {code : ℕ}
    (h : (Prog.done (failure code error) : Handler).Path log (.done (failure status text))) :
    status = code ∧ text = error := failure_inj (Prog.path_done.mp h).2

theorem refusal_of_pure {error : String} {code : ℕ}
    (h : (catch500 (pure (failure code error))).Path log (.done (failure status text))) :
    status = code ∧ text = error := failure_inj (catch500_pure_path h).2

/-- **What `POST /auth/register` refuses with**, however the database answers. -/
theorem register_refusals (h4xx : 400 ≤ status ∧ status < 500)
    (h : (postAuthRegister svc env body).Path log (.done (failure status text))) :
    status = 400 ∧ text ∈ registerRefusals := by
  unfold postAuthRegister at h
  split at h
  · obtain ⟨rfl, rfl⟩ := refusal_of_done h
    exact ⟨rfl, by decide⟩
  · split at h
    · obtain ⟨rfl, rfl⟩ := refusal_of_done h
      exact ⟨rfl, by decide⟩
    · split at h
      · obtain ⟨rfl, rfl⟩ := refusal_of_done h
        exact ⟨rfl, by decide⟩
      · obtain ⟨-, h⟩ | ⟨name, -, h⟩ := catch500_coerced_path h
        · obtain ⟨hstatus, -⟩ := failure_inj h
          omega
        obtain ⟨-, k, hk⟩ | ⟨rows, log', -, h⟩ | ⟨err, -, h⟩ := catch500_path h
        · cases hk
        · cases rows with
          | nil =>
            obtain ⟨rfl, rfl⟩ := refusal_of_pure h
            exact ⟨rfl, by decide⟩
          | cons user rest => exact (createTokens_refusals (fun _ => show 201 < 400 by decide) h4xx h).elim
        · obtain ⟨hstatus, -⟩ := failure_inj h
          omega

theorem refusal_of_throw {err : Thrown}
    (h : (catch500 (throw err)).Path log (.done (failure status text))) : status = 500 := by
  obtain ⟨-, h⟩ := Prog.path_done.mp h
  exact (failure_inj h).1

/-- **What `POST /auth/login` refuses with**, however the database answers. -/
theorem login_refusals (h4xx : 400 ≤ status ∧ status < 500)
    (h : (postAuthLogin svc env body).Path log (.done (failure status text))) :
    (status = 400 ∨ status = 401) ∧ text ∈ loginRefusals := by
  unfold postAuthLogin at h
  split at h
  case h_2 =>
    obtain ⟨rfl, rfl⟩ := refusal_of_done h
    exact ⟨.inl rfl, by decide⟩
  case h_1 =>
    split at h
    · obtain ⟨rfl, rfl⟩ := refusal_of_done h
      exact ⟨.inl rfl, by decide⟩
    · split at h
      · obtain ⟨-, k, hk⟩ | ⟨rows, log', -, h⟩ | ⟨err, -, h⟩ := catch500_path h
        · cases hk
        · cases rows with
          | nil =>
            obtain ⟨rfl, rfl⟩ := refusal_of_pure h
            exact ⟨.inr rfl, by decide⟩
          | cons user rest =>
            dsimp only at h
            split at h
            · obtain ⟨rfl, rfl⟩ := refusal_of_pure h
              exact ⟨.inr rfl, by decide⟩
            · split at h
              · split at h
                · obtain ⟨rfl, rfl⟩ := refusal_of_pure h
                  exact ⟨.inr rfl, by decide⟩
                · exact (createTokens_refusals (fun _ => show 200 < 400 by decide) h4xx h).elim
              · have hstatus := refusal_of_throw h
                omega
        · obtain ⟨hstatus, -⟩ := failure_inj h
          omega
      · have hstatus := refusal_of_throw h
        omega

end

/-! ### What is shown -/

/-- `authStore.register` rejects as it does for a known email. -/
def Recognised (message : ℕ → String) (email : String) (r : Response) : Prop :=
  (registerCatch email (answerError message r)).isUserExists = true ∧
    (registerCatch email (answerError message r)).prefillEmail = some email

def registerShows (message : ℕ → String) (email : String) (r : Response) : Json :=
  (handleStep3Catch email (registerCatch email (answerError message r))).error

def StatusMessage (message : ℕ → String) : Prop :=
  ∀ status, message status = "Request failed with status code " ++ toString status

theorem message_words {message : ℕ → String} (hmessage : StatusMessage message) {word : String}
    (hword : word ∈ ["exist", "already", "registered", "timeout"]) :
    includes (toLowerCase (message 400)) word = false := by
  rw [show message 400 = "Request failed with status code 400" from hmessage 400]
  revert word
  decide +kernel

theorem shownMessage_answer (message : ℕ → String) (r : Response) :
    shownMessage (answerError message r) = .str (message r.status) := by
  rw [shownMessage, nestedMessage_eq]
  rfl

theorem tellsExists_answer {message : ℕ → String} (hmessage : StatusMessage message) (r : Response) :
    tellsExists (answerError message r) = false := by
  by_cases hstatus : r.status = 400
  · simp [tellsExists, shownMessage_answer, Json.toJsString, hstatus, message_words hmessage]
  · simp [tellsExists, answerError, hstatus]

theorem registerCatch_answer {message : ℕ → String} (hmessage : StatusMessage message) (email : String)
    (r : Response) : (registerCatch email (answerError message r)).isUserExists = false ∧
      (r.status = 400 → registerCatch email (answerError message r) = answerError message r) := by
  have haxios : (answerError message r).isAxiosError = true := rfl
  unfold registerCatch
  rw [if_pos haxios, tellsExists_answer hmessage r]
  refine ⟨?_, fun hstatus => ?_⟩
  · split
    · contradiction
    · split
      · rfl
      · split <;> rfl
  · have htime : timedOut (answerError message r) = false := by
      simp [timedOut, answerError, hstatus, message_words hmessage]
    rw [htime]
    rfl

/-- **Errors of the server get lost.** With the messages of axios, an email that has an account is never
recognised, and neither the register screen nor the login screen ever shows the text of a 4xx of its route,
whatever the login is rejected with behind it. -/
theorem auth_errors_disagree {message : ℕ → String} (hmessage : StatusMessage message) :
    (∀ (svc : Services) (s : ServerState) (env : NodeEnv) (x : ℕ → Tick) (input : RegisterInput),
      input.email ≠ "" → 8 ≤ jsLength input.password → (∃ row ∈ s.db.users, row.email = jsTrim input.email) →
      ∃ status text,
        (serve svc s (.postAuthRegister (registerBody input)) env x).1 = failure status text ∧
        400 ≤ status ∧ ¬ Recognised message input.email (failure status text)) ∧
    (∀ (svc : Services) (env : NodeEnv) (body : Json) (log : List (Prog.Call Stmt Answer Thrown))
      (status : ℕ) (text email : String), 400 ≤ status ∧ status < 500 →
      (postAuthRegister svc env body).Path log (.done (failure status text)) →
      registerShows message email (failure status text) ≠ .str text) ∧
    ∀ (svc : Services) (env : NodeEnv) (body : Json) (log : List (Prog.Call Stmt Answer Thrown))
      (status : ℕ) (text : String) (refreshed : Response) (lost : JsError) (error : ApiError),
      400 ≤ status ∧ status < 500 →
      (postAuthLogin svc env body).Path log (.done (failure status text)) →
      loginCatch (rejection message (failure status text) refreshed lost error) ≠ .str text := by
  refine ⟨fun svc s env x input hemail hpassword hknown => ?_,
    fun svc env body log status text email h4xx hpath => ?_,
    fun svc env body log status text refreshed lost error h4xx hpath => ?_⟩
  · have hlost : ∀ r, ¬ Recognised message input.email r := by
      rintro r ⟨hexists, -⟩
      rw [(registerCatch_answer hmessage input.email r).1] at hexists
      cases hexists
    obtain ⟨he, hp, -⟩ := registerBody_fields input
    have hanswers : (serve svc s (.postAuthRegister (registerBody input)) env x).1 = _ ∨ ∃ error, _ = _ :=
      register_body_known he hp hemail hpassword hknown
    obtain hanswer | ⟨error, hanswer⟩ := hanswers
    · exact ⟨400, _, hanswer, le_rfl, hlost _⟩
    · exact ⟨500, error, hanswer, by decide, hlost _⟩
  · obtain ⟨rfl, htext⟩ := register_refusals h4xx hpath
    have hshown : registerShows message email (failure 400 text) =
        .str "Request failed with status code 400" := by
      rw [registerShows, (registerCatch_answer hmessage email _).2 rfl, handleStep3Catch, shownMessage_answer]
      exact congrArg Json.str (hmessage 400)
    rw [hshown]
    rintro hsame
    rw [← Json.str.inj hsame] at htext
    exact absurd htext (by decide)
  · obtain ⟨-, htext⟩ := login_refusals h4xx hpath
    unfold loginCatch
    rw [nestedMessage_eq]
    split
    · intro hsame
      rw [← Json.str.inj hsame] at htext
      exact absurd htext (by decide)
    · intro hsame
      rw [← Json.str.inj hsame] at htext
      exact absurd htext (by decide)

def axiosMessage (status : ℕ) : String := "Request failed with status code " ++ toString status

def anaRegistered : ServerState :=
  (serve plainServices {} (.postAuthRegister (registerBody ana)) ⟨0, "r1", 0⟩ fun _ => { uuid := 1 }).2

theorem ana_known : ∃ row ∈ anaRegistered.db.users, row.email = jsTrim ana.email := by
  have hany : anaRegistered.db.users.any (·.email = jsTrim ana.email) = true := by decide +kernel
  obtain ⟨row, hrow, hemail⟩ := List.any_eq_true.mp hany
  exact ⟨row, hrow, of_decide_eq_true hemail⟩

/-- Ana registers once more, an empty form is sent, and Bea logs in with an email that nobody has. -/
theorem auth_errors_disagree_ana :
    (∃ status text, (serve plainServices anaRegistered (.postAuthRegister (registerBody ana)) ⟨1, "r2", 0⟩
        fun _ => { uuid := 2 }).1 = failure status text ∧ 400 ≤ status ∧
      ¬ Recognised axiosMessage ana.email (failure status text)) ∧
    registerShows axiosMessage "" (failure 400 "email required") ≠ .str "email required" ∧
    loginCatch (rejection axiosMessage (failure 401 "Invalid email or password")
      (failure 401 "Invalid refresh token") { message := "Network Error" } (.refreshResponse "r1" 401)) ≠
        .str "Invalid email or password" := by
  have hmessage : StatusMessage axiosMessage := fun _ => rfl
  obtain ⟨hexists, hregister, hlogin⟩ := auth_errors_disagree hmessage
  refine ⟨hexists plainServices anaRegistered _ _ ana (by decide) (by decide) ana_known, ?_, ?_⟩
  · exact hregister plainServices ⟨0, "r1", 0⟩ (.obj []) [] 400 _ _ (by decide) (.here _)
  · have hpath : (postAuthLogin plainServices ⟨0, "r1", 0⟩ (credentials "bea@x.org" "a guess")).Path
        [⟨Stmt.selectUserByEmail (jsTrim "bea@x.org"), Except.ok ([] : List UserRow)⟩]
        (.done (failure 401 "Invalid email or password")) := by
      rw [postAuthLogin_credentials (by decide) (by decide)]
      exact .query _ (.here _)
    exact hlogin plainServices _ _ _ 401 _ _ _ _ (by decide) hpath

/-- **A known email is not recognised**, and the error of the server is not shown. -/
theorem ana_not_recognised :
    ¬ ∀ (s : ServerState) (env : NodeEnv) (x : ℕ → Tick) (input : RegisterInput), input.email ≠ "" →
      8 ≤ jsLength input.password → (∃ row ∈ s.db.users, row.email = jsTrim input.email) →
      ∃ text, (serve plainServices s (.postAuthRegister (registerBody input)) env x).1 = failure 400 text ∧
        Recognised axiosMessage input.email (failure 400 text) ∧
        registerShows axiosMessage input.email (failure 400 text) = .str text := by
  intro hclaim
  obtain ⟨text, -, ⟨hexists, -⟩, -⟩ := hclaim anaRegistered ⟨1, "r2", 0⟩ (fun _ => { uuid := 2 }) ana
    (by decide) (by decide) ana_known
  have hmessage : StatusMessage axiosMessage := fun _ => rfl
  rw [(registerCatch_answer hmessage ana.email (failure 400 text)).1] at hexists
  cases hexists

end Locus.App
