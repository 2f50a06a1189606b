import Locus.App.AuthErrors
import Locus.App.Registration
import Locus.Server.History

/-!
# The form of a registration

`RegisterScreen` asks in three steps: names, e-mail and phone, the reason, the password. A press on a button hands what
is entered to the validation of its step, and what comes after it runs when that is done: by then the user may have
gone back, or pressed again. The press in the last step holds what its render knew of the first two.

In whatever order all this happens, every call of `register` has passed all checks of the form, and one is pending at a
time. So the server has nothing to complain about in what was entered: it refuses only an e-mail that has an account
(`form_registers`).
-/

namespace Locus.App

open Lib Server

/-! ### The screen -/

structure Step1Data where
  firstName : String
  lastName : String
  email : String
  phone : Option String

structure Step2Data where
  password : String
  confirmPassword : String

/-- `step1Schema`; `isEmail` is that of the schema library. -/
def step1Schema (isEmail : String → Bool) (data : Step1Data) : Bool :=
  2 ≤ jsLength data.firstName && 2 ≤ jsLength data.lastName && isEmail data.email &&
    data.phone.all fun text => phonePattern text || text = ""

/-- `step2Schema` -/
def step2Schema (data : Step2Data) : Bool :=
  8 ≤ jsLength data.password && data.password.toList.any Char.isUpper && data.password.toList.any Char.isDigit &&
    data.password = data.confirmPassword

/-- What `handleStep3` of a render holds, with what is handed to the validation. -/
structure Step3Call where
  step1Data : Option Step1Data
  housingReason : Option String
  data : Step2Data

structure RegisterScreen where
  step : ℕ := 1
  step1Data : Option Step1Data := none
  housingReason : Option String := none
  error : Option Json := none
  userExistsEmail : Option String := none
  loading : Bool := false
  /-- `isSubmittingRef.current` -/
  isSubmitting : Bool := false
  /-- What is being validated for the first step and for the last one. -/
  validating1 : List Step1Data := []
  validating3 : List Step3Call := []
  /-- The calls of `authRegister` so far. -/
  registers : List RegisterInput := []
  /-- The e-mail of each of them that is pending. -/
  pending : List String := []

namespace RegisterScreen

/-- `handleStep2` -/
def handleStep2 (s : RegisterScreen) : RegisterScreen :=
  match s.housingReason with
  | none => { s with error := some (.str "Please tell us why you joined Locus") }
  | some _ => { s with step := 3 }

/-- What `authRegister` is called with. -/
def input (step1Data : Step1Data) (housingReason : String) (data : Step2Data) : RegisterInput where
  email := step1Data.email
  password := data.password
  firstName := step1Data.firstName
  lastName := step1Data.lastName
  phone := step1Data.phone
  housingReason := some housingReason
  backgroundCheckConsent := true

/-- The callback of `handleStep3` up to its `await`. -/
def submit (s : RegisterScreen) (call : Step3Call) : RegisterScreen :=
  match call.step1Data, call.housingReason with
  | some step1Data, some housingReason =>
    if s.isSubmitting then s
    else
      { s with
        isSubmitting := true
        loading := true
        error := none
        userExistsEmail := none
        registers := s.registers ++ [input step1Data housingReason call.data]
        pending := s.pending ++ [step1Data.email] }
  | _, _ => s

/-- Its rest, where `authRegister` throws `error` or returns. -/
def settle (s : RegisterScreen) (email : String) (error : Option JsError) : RegisterScreen :=
  let s := { s with isSubmitting := false, loading := false }
  match error with
  | none => s
  | some e =>
    let shown := handleStep3Catch email e
    { s with error := some shown.error, userExistsEmail := shown.userExistsEmail }

end RegisterScreen

inductive RegisterEvent
  | handleStep1 (data : Step1Data)
  /-- One of the validations of the first step is done. -/
  | validated1 (index : ℕ)
  | setHousingReason (value : String)
  | handleStep2
  | handleStep3 (data : Step2Data)
  | validated3 (index : ℕ)
  /-- One of the pending calls of `authRegister` ends. -/
  | settle (index : ℕ) (error : Option JsError)
  | back

/-- The screen from its first render on; the buttons of a step are there in that step only. -/
def registerScreen (isEmail : String → Bool) : System RegisterScreen RegisterEvent where
  Init s := s = {}
  step s
    | .handleStep1 data => if s.step = 1 then some { s with validating1 := s.validating1 ++ [data] } else none
    | .validated1 index => s.validating1[index]?.map fun data =>
        let s := { s with validating1 := s.validating1.eraseIdx index }
        if step1Schema isEmail data then { s with step1Data := some data, step := 2 } else s
    | .setHousingReason value =>
      if s.step = 2 ∧ value ∈ housingReasons then some { s with housingReason := some value } else none
    | .handleStep2 => if s.step = 2 then some s.handleStep2 else none
    | .handleStep3 data =>
      if s.step = 3 ∧ s.loading = false then
        some { s with validating3 := s.validating3 ++ [⟨s.step1Data, s.housingReason, data⟩] }
      else none
    | .validated3 index => s.validating3[index]?.map fun call =>
        let s := { s with validating3 := s.validating3.eraseIdx index }
        if step2Schema call.data then s.submit call else s
    | .settle index error => s.pending[index]?.map fun email =>
        { s with pending := s.pending.eraseIdx index }.settle email error
    | .back => if 1 < s.step then some { s with step := s.step - 1 } else none

/-! ### What is submitted -/

section
variable {isEmail : String → Bool} {s : RegisterScreen}

/-- All checks of the form. -/
structure ValidInput (isEmail : String → Bool) (input : RegisterInput) : Prop where
  firstName : 2 ≤ jsLength input.firstName
  lastName : 2 ≤ jsLength input.lastName
  email : isEmail input.email = true
  phone : ∀ text, input.phone = some text → phonePattern text = true ∨ text = ""
  housingReason : ∃ reason ∈ housingReasons, input.housingReason = some reason
  password : 8 ≤ jsLength input.password
  upper : ∃ c ∈ input.password.toList, c.isUpper = true
  digit : ∃ c ∈ input.password.toList, c.isDigit = true
  consent : input.backgroundCheckConsent = true

theorem input_valid {step1Data : Step1Data} {housingReason : String} {data : Step2Data}
    (h₁ : step1Schema isEmail step1Data = true) (hreason : housingReason ∈ housingReasons)
    (h₂ : step2Schema data = true) : ValidInput isEmail (RegisterScreen.input step1Data housingReason data) := by
  simp only [step1Schema, Bool.and_eq_true, decide_eq_true_eq, Option.all_eq_true, Bool.or_eq_true] at h₁
  simp only [step2Schema, Bool.and_eq_true, decide_eq_true_eq, List.any_eq_true] at h₂
  obtain ⟨⟨⟨hfirst, hlast⟩, hemail⟩, hphone⟩ := h₁
  obtain ⟨⟨⟨hlength, hupper⟩, hdigit⟩, -⟩ := h₂
  exact ⟨hfirst, hlast, hemail, hphone, ⟨housingReason, hreason, rfl⟩, hlength, hupper, hdigit, rfl⟩

/-- What the screen knows is checked, and it knows what the steps before the current one ask for. -/
structure Filled (isEmail : String → Bool) (s : RegisterScreen) : Prop where
  step : 1 ≤ s.step ∧ s.step ≤ 3
  step1Data : ∀ data ∈ s.step1Data, step1Schema isEmail data = true
  housingReason : ∀ reason ∈ s.housingReason, reason ∈ housingReasons
  first : 2 ≤ s.step → s.step1Data ≠ none
  second : 3 ≤ s.step → s.housingReason ≠ none
  calls : ∀ call ∈ s.validating3, (∀ data ∈ call.step1Data, step1Schema isEmail data = true) ∧
    ∀ reason ∈ call.housingReason, reason ∈ housingReasons
  registers : ∀ input ∈ s.registers, ValidInput isEmail input
  pending : s.pending.length = if s.isSubmitting then 1 else 0

theorem filled_submit (h : Filled isEmail s) {call : Step3Call} (h₂ : step2Schema call.data = true)
    (hcall : (∀ data ∈ call.step1Data, step1Schema isEmail data = true) ∧
      ∀ reason ∈ call.housingReason, reason ∈ housingReasons) : Filled isEmail (s.submit call) := by
  unfold RegisterScreen.submit
  split
  · rename_i step1Data housingReason hstep1 hreason
    split
    · exact h
    · rename_i hfree
      refine { h with registers := fun input hinput => ?_, pending := ?_ }
      · rcases List.mem_append.mp hinput with hinput | hinput
        · exact h.registers input hinput
        · obtain rfl := List.mem_singleton.mp hinput
          exact input_valid (hcall.1 step1Data hstep1) (hcall.2 housingReason hreason) h₂
      · have hnone : s.pending.length = 0 := h.pending.trans (if_neg hfree)
        rw [List.length_append, hnone]
        rfl
  · exact h

theorem filled_settle (h : Filled isEmail s) {index : ℕ} {email : String} (hpending : s.pending[index]? = some email)
    (error : Option JsError) :
    Filled isEmail ({ s with pending := s.pending.eraseIdx index }.settle email error) := by
  have hindex := (List.getElem?_eq_some_iff.mp hpending).1
  have hlength : (s.pending.eraseIdx index).length = 0 := by
    have hone := h.pending
    rw [List.length_eraseIdx_of_lt hindex]
    split at hone <;> omega
  unfold RegisterScreen.settle
  cases error with
  | none => exact { h with pending := hlength }
  | some e => exact { h with pending := hlength }

/-- **Whatever is pressed and whatever ends**, what the screen knows stays checked. -/
theorem filled_step {s' : RegisterScreen} {e : RegisterEvent} (h : Filled isEmail s)
    (hstep : (registerScreen isEmail).step s e = some s') : Filled isEmail s' := by
  cases e with
  | handleStep1 data =>
    simp only [registerScreen, Option.ite_none_right_eq_some, Option.some.injEq] at hstep
    obtain ⟨-, rfl⟩ := hstep
    exact { h with }
  | validated1 index =>
    obtain ⟨data, -, rfl⟩ := Option.map_eq_some_iff.mp hstep
    dsimp only
    split
    · rename_i hvalid
      refine { h with step := ⟨by simp, by simp⟩, step1Data := ?_, first := fun _ => by simp, second := fun h₃ => ?_ }
      · rintro _ ⟨⟩
        exact hvalid
      · exact absurd h₃ (by simp)
    · exact { h with }
  | setHousingReason value =>
    simp only [registerScreen, Option.ite_none_right_eq_some, Option.some.injEq] at hstep
    obtain ⟨⟨-, hvalue⟩, rfl⟩ := hstep
    refine { h with housingReason := ?_, second := fun _ => by simp }
    rintro _ ⟨⟩
    exact hvalue
  | handleStep2 =>
    simp only [registerScreen, Option.ite_none_right_eq_some, Option.some.injEq] at hstep
    obtain ⟨htwo, rfl⟩ := hstep
    unfold RegisterScreen.handleStep2
    split
    · exact { h with }
    · rename_i reason hreason
      exact { h with
        step := ⟨by simp, le_refl 3⟩
        first := fun _ => h.first (by omega)
        second := fun _ => by simp [hreason] }
  | handleStep3 data =>
    simp only [registerScreen, Option.ite_none_right_eq_some, Option.some.injEq] at hstep
    obtain ⟨-, rfl⟩ := hstep
    refine { h with calls := fun call hcall => ?_ }
    rcases List.mem_append.mp hcall with hcall | hcall
    · exact h.calls call hcall
    · obtain rfl := List.mem_singleton.mp hcall
      exact ⟨h.step1Data, h.housingReason⟩
  | validated3 index =>
    obtain ⟨call, hcall, rfl⟩ := Option.map_eq_some_iff.mp hstep
    have hless : Filled isEmail { s with validating3 := s.validating3.eraseIdx index } :=
      { h with calls := fun call hmem => h.calls call (List.mem_of_mem_eraseIdx hmem) }
    dsimp only
    split
    · rename_i hvalid
      exact filled_submit hless hvalid (h.calls call (List.mem_of_getElem? hcall))
    · exact hless
  | settle index error =>
    obtain ⟨email, hemail, rfl⟩ := Option.map_eq_some_iff.mp hstep
    exact filled_settle h hemail error
  | back =>
    simp only [registerScreen, Option.ite_none_right_eq_some, Option.some.injEq] at hstep
    obtain ⟨hlater, rfl⟩ := hstep
    have hbound := h.step
    exact { h with
      step := ⟨by simp only; omega, by simp only; omega⟩
      first := fun htwo => h.first (by simp only at htwo; omega)
      second := fun hthree => h.second (by simp only at hthree; omega) }

theorem filled_reachable {D : RegisterScreen → RegisterEvent → Prop} (h : (registerScreen isEmail).Reachable D s) :
    Filled isEmail s := by
  refine h.invariant _ ?_ fun t e t' ht _ hstep => filled_step ht hstep
  rintro _ rfl
  exact ⟨⟨le_refl 1, by decide⟩, fun _ h => (nomatch h), fun _ h => (nomatch h), fun h => absurd h (by decide),
    fun h => absurd h (by decide), fun _ h => (nomatch h), fun _ h => (nomatch h), rfl⟩

end

/-! ### What the server answers -/

section
variable {svc : Services} {db db' : Db} {log : List StmtCall}

/-- An INSERT of a user that made no row has found his e-mail. -/
def Taken (db : Db) (call : StmtCall) : Prop :=
  ∀ email name hash, call = ⟨.insertUser email name hash, .ok []⟩ → ∃ row ∈ db.users, row.email = email

theorem Taken.later {call : StmtCall} (h : db.Grows db') (hcall : Taken db call) : Taken db' call := by
  intro email name hash heq
  obtain ⟨row, hrow, hemail⟩ := hcall email name hash heq
  obtain ⟨row', hrow', hkept⟩ := h.users.mem hrow
  exact ⟨row', hrow', hkept.2.1.trans hemail⟩

theorem exec_taken {x : Tick} (q : Stmt) : Taken (exec svc x db q).2 ⟨q, (exec svc x db q).1⟩ := by
  intro email name hash hcall
  obtain ⟨rfl, hanswer⟩ := Prog.Call.mk.inj hcall
  obtain ⟨a, db', hok, hexec⟩ | ⟨e, hexec, -⟩ := exec_cases svc x db (.insertUser email name hash)
  · rw [hexec] at hanswer ⊢
    cases eq_of_heq hanswer
    change insertUser x db email name hash = .ok ([], db') at hok
    unfold insertUser at hok
    split_ifs at hok with _ hany
    · cases hok
      simpa using hany
    · cases hok
  · rw [hexec] at hanswer
    cases eq_of_heq hanswer

theorem register_answers {env : NodeEnv} {input : RegisterInput} (hemail : input.email ≠ "")
    (hpassword : 8 ≤ jsLength input.password) {response : Response}
    (h : (postAuthRegister svc env (registerBody input)).Path log (.done response)) :
    response.status = 201 ∨ response.status = 500 ∨
      response = failure 400 "An account with this email already exists." ∧
        ∃ name hash, ⟨.insertUser (jsTrim input.email) name hash, .ok []⟩ ∈ log := by
  obtain ⟨he, hp, -⟩ := registerBody_fields input
  rw [postAuthRegister_body he hp hemail hpassword] at h
  obtain ⟨-, hdone⟩ | ⟨name, -, h⟩ := catch500_coerced_path h
  · cases hdone
    exact .inr (.inl rfl)
  obtain ⟨-, hawaits⟩ | ⟨rows, log', rfl, hrest⟩ | ⟨err, -, hdone⟩ := catch500_path h
  · exact (not_awaits_done hawaits).elim
  swap
  · cases hdone
    exact .inr (.inl rfl)
  cases rows with
  | nil =>
    cases (catch500_pure_path hrest).2
    exact .inr (.inr ⟨rfl, _, _, List.mem_cons_self⟩)
  | cons user rest =>
    rw [registerRest, createTokens_bind] at hrest
    obtain ⟨-, hawaits⟩ | ⟨_, log'', -, hend⟩ | ⟨err, -, hdone⟩ := catch500_path hrest
    · exact (not_awaits_done hawaits).elim
    · cases (catch500_pure_path hend).2
      exact .inl rfl
    · cases hdone
      exact .inr (.inl rfl)

end

section
variable {ι : Type} [DecidableEq ι] {svc : Services} {publicBaseUrl : String} {env : ι → NodeEnv} {req : ι → Request}
  {Init : Db → Prop} {C : WholeServer ι → PoolEvent ι Tick → Prop} {s : WholeServer ι}
  {isEmail : String → Bool} {screen : RegisterScreen} {D : RegisterScreen → RegisterEvent → Prop}

/-- **What the form submits registers**: whatever is pressed and whatever ends, each call of `register` has passed all
checks and at most one is pending; and whatever else the server runs, it answers the call with a session, or fails, or
there is an account with the e-mail. -/
theorem form_registers (hnoEmail : isEmail "" = false) (hscreen : (registerScreen isEmail).Reachable D screen)
    {input : RegisterInput} (hinput : input ∈ screen.registers)
    (h : (wholeServer svc publicBaseUrl env req Init).Reachable C s) {i : ι}
    (hreq : req i = .api (.postAuthRegister (registerBody input))) {response : Response}
    (hi : (s.thread i).result = some (some response)) :
    ValidInput isEmail input ∧ screen.pending.length ≤ 1 ∧
      (response.status = 201 ∨ response.status = 500 ∨
        response = failure 400 "An account with this email already exists." ∧
          ∃ row ∈ s.db.users, row.email = jsTrim input.email) := by
  have hfilled := filled_reachable hscreen
  have hvalid := hfilled.registers input hinput
  have hpending : screen.pending.length ≤ 1 := by
    rw [hfilled.pending]
    split <;> omega
  have hemail : input.email ≠ "" := by
    intro hempty
    have hchecked := hvalid.email
    rw [hempty, hnoEmail] at hchecked
    cases hchecked
  refine ⟨hvalid, hpending, ?_⟩
  obtain ⟨-, htaken⟩ := Pool.answered (J := fun _ => True) (T := Taken) (fun _ _ _ => trivial)
    (fun x db q call _ hcall => hcall.later (exec_grows svc x db q)) (fun x db q _ => exec_taken q)
    (fun _ _ _ _ _ _ _ _ _ => trivial) h
  have hpath := result_path (wholeServer_path h) hi
  rw [hreq] at hpath
  obtain hcreated | hfailed | ⟨hrefused, name, hash, hcall⟩ :=
    register_answers hemail hvalid.password (api_path svc (env i) hpath)
  · exact .inl hcreated
  · exact .inr (.inl hfailed)
  · exact .inr (.inr ⟨hrefused, htaken i _ hcall _ _ _ rfl⟩)

/-- A test of e-mails for the example. -/
def hasAt (text : String) : Bool := text.toList.contains '@'

def danStep1 : Step1Data := ⟨"Dan", "Ray", "dan@x.org", none⟩

def danStep2 : Step2Data := ⟨"Secret12", "Secret12"⟩

/-- He presses the last button twice. -/
def danEnters : List RegisterEvent :=
  [.handleStep1 danStep1, .validated1 0, .setHousingReason "exploring", .handleStep2, .handleStep3 danStep2,
    .handleStep3 danStep2, .validated3 0, .validated3 0]

def danRegisters : Unit → Request :=
  fun _ => .api (.postAuthRegister (registerBody (RegisterScreen.input danStep1 "exploring" danStep2)))

theorem form_registers_dan : ∃ response : Response, response.status = 201 ∧
    ValidInput hasAt (RegisterScreen.input danStep1 "exploring" danStep2) := by
  obtain ⟨s, hrun, hstatus⟩ := wholeServer_of_exec plainServices "" (fun _ => ⟨5, "r", 0⟩) danRegisters {}
    (fun s => (s.thread ()).result.map (·.map (·.status))) [.start (), .answer () { uuid := 3 }, .answer () { uuid := 4 }]
    (a := some (some 201)) (by decide +kernel)
  obtain ⟨r, hr, hcreated⟩ := Option.map_eq_some_iff.mp hstatus
  obtain ⟨response, rfl, h201⟩ := Option.map_eq_some_iff.mp hcreated
  obtain ⟨screen, hscreen, hregisters⟩ := (registerScreen hasAt).reachable_of_exec (fun _ _ => true) (·.registers)
    danEnters (a := [RegisterScreen.input danStep1 "exploring" danStep2]) rfl (by decide +kernel)
  obtain ⟨hvalid, -, -⟩ := form_registers (by decide) hscreen (hregisters ▸ List.mem_singleton_self _)
    ((wholeServer_start ..).trans hrun) rfl hr
  exact ⟨response, h201, hvalid⟩

end

end Locus.App
