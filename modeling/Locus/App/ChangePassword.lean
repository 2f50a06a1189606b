import Locus.App.AuthErrors
import Locus.Server.NewPassword

/-!
# Changing the password in the app

`SettingsScreen` has a modal for it. What it posts has passed the checks that the server makes of a body, and the
server, whatever else it runs, answers success, or that the current password is wrong or that the account has none, or
fails. The modal goes on showing the server's text; where it closes, the account has the new password
(`form_changes`).
-/

namespace Locus.App

open Lib Server

/-! ### The screen -/

structure ChangePasswordForm where
  currentPassword : String := ""
  newPassword : String := ""
  confirmPassword : String := ""
deriving DecidableEq

/-- The part of `SettingsScreen` that changes the password. -/
structure SettingsScreen where
  passwordModalVisible : Bool := false
  form : ChangePasswordForm := {}
  passwordLoading : Bool := false
  passwordError : Option Json := none
  /-- The forms posted so far. -/
  posted : List ChangePasswordForm := []

namespace SettingsScreen

/-- `handleChangePassword` up to its `await`. -/
def handleChangePassword (s : SettingsScreen) : SettingsScreen :=
  if s.form.currentPassword = "" ∨ s.form.newPassword = "" ∨ s.form.confirmPassword = "" then
    { s with passwordError := some (.str "All fields required") }
  else if jsLength s.form.newPassword < 8 then
    { s with passwordError := some (.str "New password must be at least 8 characters") }
  else if s.form.newPassword ≠ s.form.confirmPassword then
    { s with passwordError := some (.str "Passwords do not match") }
  else { s with passwordError := none, passwordLoading := true, posted := s.posted ++ [s.form] }

/-- Behind an answer with success. -/
def succeed (s : SettingsScreen) : SettingsScreen :=
  { s with passwordModalVisible := false, form := {}, passwordLoading := false }

/-- `err.response?.data?.error || 'Failed to change password'` -/
def errorText (e : JsError) : Json :=
  ((e.response.bind fun r => errorOf r.body).filter (·.truthy)).getD (.str "Failed to change password")

def fail (s : SettingsScreen) (e : JsError) : SettingsScreen :=
  { s with passwordError := some (errorText e), passwordLoading := false }

end SettingsScreen

inductive SettingsEvent
  /-- A press on the row of the menu, which the modal covers -/
  | showModal
  | cancel
  | setCurrentPassword (text : String)
  | setNewPassword (text : String)
  | setConfirmPassword (text : String)
  /-- A press on the button, which is disabled while it loads -/
  | handleChangePassword
  | answered
  | failed (error : JsError)

/-- The screen from its first render on. -/
def settingsScreen : System SettingsScreen SettingsEvent where
  Init s := s = {}
  step s
    | .showModal => if s.passwordModalVisible then none else some { s with passwordModalVisible := true }
    | .cancel => if s.passwordModalVisible then some { s with passwordModalVisible := false } else none
    | .setCurrentPassword text =>
      if s.passwordModalVisible then some { s with form := { s.form with currentPassword := text } } else none
    | .setNewPassword text =>
      if s.passwordModalVisible then some { s with form := { s.form with newPassword := text } } else none
    | .setConfirmPassword text =>
      if s.passwordModalVisible then some { s with form := { s.form with confirmPassword := text } } else none
    | .handleChangePassword =>
      if s.passwordModalVisible ∧ s.passwordLoading = false then some s.handleChangePassword else none
    | .answered => if s.passwordLoading then some s.succeed else none
    | .failed error => if s.passwordLoading then some (s.fail error) else none

/-! ### What is posted -/

/-- All checks of the form. -/
structure ChangePasswordForm.Checked (form : ChangePasswordForm) : Prop where
  current : form.currentPassword ≠ ""
  length : 8 ≤ jsLength form.newPassword
  confirmed : form.newPassword = form.confirmPassword

section
variable {s s' : SettingsScreen} {e : SettingsEvent}

theorem settingsScreen_cases (h : settingsScreen.step s e = some s') :
    s'.posted = s.posted ∨ s'.posted = s.posted ++ [s.form] ∧ s.form.Checked := by
  cases e with
  | handleChangePassword =>
    simp only [settingsScreen, Option.ite_none_right_eq_some, Option.some.injEq] at h
    obtain ⟨-, rfl⟩ := h
    unfold SettingsScreen.handleChangePassword
    split
    · exact .inl rfl
    rename_i hfields
    split
    · exact .inl rfl
    rename_i hlength
    split
    · exact .inl rfl
    rename_i hsame
    exact .inr ⟨rfl, fun hempty => hfields (.inl hempty), by omega, not_ne_iff.mp hsame⟩
  | showModal | cancel | setCurrentPassword | setNewPassword | setConfirmPassword | answered | failed =>
    simp only [settingsScreen, Option.ite_none_right_eq_some, Option.ite_none_left_eq_some, Option.some.injEq] at h
    obtain ⟨-, rfl⟩ := h
    exact .inl rfl

theorem posted_checked {D : SettingsScreen → SettingsEvent → Prop} (h : settingsScreen.Reachable D s) :
    ∀ form ∈ s.posted, form.Checked := by
  refine h.invariant (fun s => ∀ form ∈ s.posted, form.Checked) ?_ fun s e s' hs _ hstep => ?_
  · rintro _ rfl form hform
    cases hform
  · obtain hsame | ⟨hposted, hchecked⟩ := settingsScreen_cases hstep
    · rw [hsame]
      exact hs
    · rw [hposted]
      intro form hform
      rcases List.mem_append.mp hform with hform | hform
      · exact hs form hform
      · rw [List.mem_singleton.mp hform]
        exact hchecked

end

/-! ### What the server answers -/

/-- What `api.post` sends. -/
def ChangePasswordForm.body (form : ChangePasswordForm) : Json :=
  .obj [("current_password", .str form.currentPassword), ("new_password", .str form.newPassword)]

/-- The texts with which the server refuses a change that the form has checked. -/
def changeRefusals : List (ℕ × String) :=
  [(401, "Current password is incorrect"), (400, "Account has no password set")]

section
variable {ι : Type} [DecidableEq ι] {svc : Services} {publicBaseUrl : String} {env : ι → NodeEnv} {req : ι → Request}
  {Init : Db → Prop} {C : WholeServer ι → PoolEvent ι Tick → Prop} {s₀ s : WholeServer ι}
  {tr : List (PoolEvent ι Tick)} {i : ι} {authorization : Option String}
  {screen : SettingsScreen} {D : SettingsScreen → SettingsEvent → Prop} {form : ChangePasswordForm}

/-- **The form changes the password**: whatever is typed and pressed, what it posts is as long as it must be and as it
was confirmed; and whatever else the server runs, it answers the post of a user with success, and then the account has
the new password, or refuses with a text about the account, which the modal shows where it is handed on, or fails. -/
theorem form_changes (hinit : ∀ db, Init db → Constrained db) (hscreen : settingsScreen.Reachable D screen)
    (hform : form ∈ screen.posted) (h : (wholeServer svc publicBaseUrl env req Init).Reachable C s₀) {row : UserRow}
    (hrow : row ∈ s₀.db.users) (hchange : req i = .api (.postAuthChangePassword authorization form.body))
    (huser : (req i).user svc (env i) = some row.id) (honly : OnlyChange svc env req i row.id)
    (hidle : s₀.thread i = .idle) (hrun : (wholeServer svc publicBaseUrl env req Init).Run C s₀ tr s)
    {response : Response} (hi : (s.thread i).result = some (some response)) :
    form.Checked ∧ (response.status = 500 ∨
      (response = ⟨200, .success⟩ ∧ HasHash row.id row.email (svc.hash (env i).salt form.newPassword) s.db) ∨
      ∃ status text, (status, text) ∈ changeRefusals ∧ response = failure status text ∧
        ∀ (message : ℕ → String) (shown : SettingsScreen),
          (shown.fail (answerError message response)).passwordError = some (.str text)) := by
  have hchecked := posted_checked hscreen form hform
  refine ⟨hchecked, ?_⟩
  have hfinds := finds_user hinit h hrow hidle hrun
  have hend := result_path (wholeServer_path (h.trans hrun)) hi
  have hchanged := fun hok : response.status = 200 =>
    (changed_account hinit h hrow hchange huser rfl honly hidle hrun hi hok).2
  rw [hchange] at hend huser
  obtain ⟨user, hauth, hid⟩ := Option.map_eq_some_iff.mp huser
  have hbody : postAuthChangePassword svc (env i) authorization form.body = _ :=
    postAuthChangePassword_body hauth rfl (decide_eq_true hchecked.current) rfl hchecked.length
  have hpath : (postAuthChangePassword svc (env i) authorization form.body).Path _ _ := api_path svc (env i) hend
  rw [hbody, hid] at hpath
  cases changeRest_answers hpath with
  | failed h500 => exact .inl h500
  | unknown hcall =>
    obtain ⟨_, hnone, -⟩ := hfinds _ hcall [] rfl
    cases hnone
  | noPassword => exact .inr (.inr ⟨400, _, .tail _ (.head _), rfl, fun _ _ => rfl⟩)
  | wrong => exact .inr (.inr ⟨401, _, .head _, rfl, fun _ _ => rfl⟩)
  | changed => exact .inr (.inl ⟨rfl, hchanged rfl⟩)

/-- Ana confirms something else first. -/
def anaTypes : List SettingsEvent :=
  [.showModal, .setCurrentPassword "first word", .setNewPassword "second word", .setConfirmPassword "second",
    .handleChangePassword, .setConfirmPassword "second word", .handleChangePassword]

def anaForm : ChangePasswordForm := ⟨"first word", "second word", "second word"⟩

def anaSaves (_ : Unit) : Request := .api (.postAuthChangePassword (some "Bearer 1.0.ana@x.org") anaForm.body)

theorem form_changes_ana : ∃ s : WholeServer Unit,
    HasHash 1 "ana@x.org" (shortHash "second word") s.db := by
  obtain ⟨s, hrun, hchanged⟩ := wholeServer_of_exec bcryptServices "" (fun _ => ⟨5, "r", 0⟩) anaSaves
    { users := [anaFirst] } (fun s => (s.thread ()).result.join.map (·.status))
    [.start (), .answer () {}, .answer () {}] (a := some 200) (by decide +kernel)
  obtain ⟨response, hresult, hok⟩ := Option.map_eq_some_iff.mp hchanged
  obtain ⟨screen, hscreen, hposted⟩ := settingsScreen.reachable_of_exec (fun _ _ => true) (·.posted) anaTypes
    (a := [anaForm]) rfl (by decide +kernel)
  have hsaves : anaSaves () = .api (.postAuthChangePassword (some "Bearer 1.0.ana@x.org") anaForm.body) := rfl
  obtain ⟨-, h500 | ⟨-, hhas⟩ | ⟨status, text, htext, hrefused, -⟩⟩ := form_changes
    (by rintro _ rfl; exact constrained_ana) hscreen (hposted ▸ List.mem_singleton_self _) (wholeServer_start ..)
    (List.mem_singleton_self anaFirst) hsaves (by decide +kernel) (fun _ _ _ hother => absurd rfl hother) rfl hrun
    (Option.join_eq_some_iff.mp hresult)
  · rw [hok] at h500
    cases h500
  · exact ⟨s, hhas⟩
  · rw [hrefused] at hok
    simp only [changeRefusals, List.mem_cons, Prod.mk.injEq, List.not_mem_nil, or_false] at htext
    obtain ⟨rfl, -⟩ | ⟨rfl, -⟩ := htext <;> cases hok

end

end Locus.App
