import Locus.Server.NewPassword
import Locus.Server.TokenTable

/-!
# The life of a refresh token

A refresh token whose row is in the table is good until it is presented or expires: a `POST /auth/refresh` with it that
starts later is answered with a new pair for the user of the row, or fails with a 500, whatever else is in flight
(`token_lives`). Nothing but a request that presents it takes the row out; a change of the user's password, for one,
leaves it.
-/

namespace Locus.Server

open Lib

/-- The refresh token that the request presents. -/
def Request.presents : Request → Option String
  | .api r => r.presents
  | .putUsersProfile .. => none

section
variable {svc : Services} {env : NodeEnv} {x : Tick} {db : Db} {row : RefreshTokenRow}

theorem Request.Sends.presents {r : Request} {token : String} (h : r.Sends svc env (.deleteRefreshToken token)) :
    r.presents = some token := by
  cases r with
  | api r =>
    obtain ⟨-, body, rfl | rfl, htoken⟩ := h
    · exact htoken
    · exact htoken
  | putUsersProfile authorization form =>
    obtain ⟨-, ⟨id, hq⟩ | ⟨updates, params, hq⟩⟩ := h
    · cases hq
    · cases hq

/-! ### What is answered -/

theorem selectRefreshToken_live (hdb : Constrained db) (hrow : row ∈ db.refreshTokens) (hlive : x.now < row.expiresAt) :
    selectRefreshToken x db row.token = [row.userId] := by
  have hone := filter_of_nodup_map hdb.refresh_tokens_token_key hrow
  have hboth : db.refreshTokens.filter (fun r => r.token = row.token ∧ x.now < r.expiresAt) =
      (db.refreshTokens.filter fun r => r.token = row.token).filter fun r => x.now < r.expiresAt := by
    rw [List.filter_filter]
    congr 1
    funext r
    simp [Bool.and_comm]
  rw [selectRefreshToken, hboth, hone]
  simp [hlive]

/-- A search for the token finds its user. -/
def FindsOwner (row : RefreshTokenRow) (call : StmtCall) : Prop :=
  ∀ rows, call = ⟨.selectRefreshToken row.token, .ok rows⟩ → rows = [row.userId]

theorem exec_findsOwner (hdb : Constrained db) (hrow : row ∈ db.refreshTokens) (hlive : x.now < row.expiresAt)
    (q : Stmt) : FindsOwner row ⟨q, (exec svc x db q).1⟩ := by
  intro rows hcall
  obtain ⟨rfl, hanswer⟩ := Prog.Call.mk.inj hcall
  obtain ⟨db', hok⟩ := exec_ok (eq_of_heq hanswer)
  obtain rfl : selectRefreshToken x db row.token = rows := congrArg Prod.fst (Except.ok.inj hok)
  exact selectRefreshToken_live hdb hrow hlive

theorem postAuthRefresh_finds {body : Json} {log : List StmtCall} {email : String} {response : Response}
    (htoken : textOrNull (body.field? "refresh_token") = some row.token)
    (h : (postAuthRefresh svc env body).Path log (.done response))
    (hfirst : ∀ call, log.head? = some call → FindsOwner row call)
    (hfinds : ∀ call ∈ log, FindsUser row.userId email call) :
    response.status = 500 ∨
      response = ⟨200, .tokens (svc.sign ⟨row.userId, email⟩ env.now) env.randomHex⟩ := by
  unfold postAuthRefresh at h
  rw [htoken] at h
  obtain ⟨-, hawaits⟩ | ⟨rows, log₁, rfl, h₁⟩ | ⟨err, -, hdone⟩ := catch500_path h
  · exact (not_awaits_done hawaits).elim
  swap
  · cases hdone
    exact .inl rfl
  obtain rfl := hfirst _ rfl rows rfl
  obtain ⟨-, hawaits⟩ | ⟨users, log₂, rfl, h₂⟩ | ⟨err, -, hdone⟩ := catch500_path h₁
  · exact (not_awaits_done hawaits).elim
  swap
  · cases hdone
    exact .inl rfl
  obtain ⟨user, rfl, hid, hemail⟩ := hfinds _ (.tail _ (.head _)) users rfl
  -- behind the searches only a failure of the DELETE or the INSERT is in the way
  obtain ⟨-, hawaits⟩ | ⟨n, log₃, rfl, h₃⟩ | ⟨err, -, hdone⟩ := catch500_path h₂
  · exact (not_awaits_done hawaits).elim
  swap
  · cases hdone
    exact .inl rfl
  obtain ⟨-, hawaits⟩ | ⟨_, log₄, -, h₄⟩ | ⟨err, -, hdone⟩ := catch500_path h₃
  · exact (not_awaits_done hawaits).elim
  · cases (catch500_pure_path h₄).2
    rw [hid, hemail]
    exact .inr rfl
  · cases hdone
    exact .inl rfl

end

/-! ### Runs -/

section
variable {ι : Type} [DecidableEq ι] {svc : Services} {publicBaseUrl : String} {env : ι → NodeEnv} {req : ι → Request}
  {Init : Db → Prop} {C : WholeServer ι → PoolEvent ι Tick → Prop} {s s' : WholeServer ι}
  {tr : List (PoolEvent ι Tick)} {i : ι} {body : Json}

/-- The statements of `i` run before a time. -/
def Before (i : ι) (time : Time) (_ : WholeServer ι) (e : PoolEvent ι Tick) : Prop :=
  ∀ x, e = .answer i x → x.now < time

/-- **A refresh token is good until it is presented or expires**: a refresh with a token that has its row, and that no
other request presents, is answered with a new pair for the user of the row, or fails, whatever other requests run in
between. -/
theorem token_lives (hinit : ∀ db, Init db → Constrained db)
    (h : (wholeServer svc publicBaseUrl env req Init).Reachable C s) {row : RefreshTokenRow}
    (hrow : row ∈ s.db.refreshTokens) (hrefresh : req i = .api (.postAuthRefresh body))
    (htoken : textOrNull (body.field? "refresh_token") = some row.token)
    (hothers : ∀ j, j ≠ i → (req j).presents ≠ some row.token) (hidle : s.thread i = .idle)
    (hrun : (wholeServer svc publicBaseUrl env req Init).Run (Before i row.expiresAt) s tr s') {response : Response}
    (hi : (s'.thread i).result = some (some response)) :
    ∃ user ∈ s.db.users, user.id = row.userId ∧ (response.status = 500 ∨
      response = ⟨200, .tokens (svc.sign ⟨user.id, user.email⟩ (env i).now) (env i).randomHex⟩) := by
  have hdb := constraints_hold hinit h
  obtain ⟨user, huser, hid⟩ := hdb.refresh_tokens_user_id_fkey row hrow
  replace hid : user.id = row.userId := hid
  refine ⟨user, huser, hid, ?_⟩
  have hfirst := Pool.first_answer (J := Constrained) (F := fun db => row ∈ db.refreshTokens) (T := FindsOwner row) i
    (fun t x q hbefore hdb hrow => exec_findsOwner hdb hrow (hbefore x rfl) q)
    (fun j x db q k log hpath hdb => by
      have hsends := (hpath.always (wholeServer_sends j)).1
      refine ⟨exec_constrained x hdb hsends.roleFits, fun hj hrow => exec_refreshToken_stays x hrow ?_⟩
      rintro rfl
      exact hothers j hj hsends.presents)
    (wholeServer_path h) hdb hrow hidle hrun
  have hfinds := finds_user hinit h huser hidle hrun
  rw [hid] at hfinds ⊢
  have hreach := (h.mono (D := System.Any) fun _ _ _ => trivial).trans (hrun.mono fun _ _ _ => trivial)
  have hend := result_path (wholeServer_path hreach) hi
  rw [hrefresh] at hend
  exact postAuthRefresh_finds htoken (api_path svc (env i) hend) hfirst hfinds

/-- Ana changes her password, and her token is refreshed. -/
def changeAndRefresh : Bool → Request
  | false => .api (.postAuthChangePassword (some "Bearer 1.0.ana@x.org")
      (.obj [("current_password", .str "first word"), ("new_password", .str "second word")]))
  | true => .api (.postAuthRefresh (.obj [("refresh_token", .str "t0")]))

def anaT0 : RefreshTokenRow := { id := 9, userId := 1, token := "t0", expiresAt := 100, createdAt := 0 }

def anaSession : Db := { users := [anaFirst], refreshTokens := [anaT0] }

theorem constrained_anaSession : Constrained anaSession := by
  constructor <;> first
    | exact List.nodup_singleton _
    | exact List.nodup_nil
    | exact fun _ h => absurd h List.not_mem_nil
    | exact constrained_ana.users_varchar
    | (intro row hrow
       obtain rfl := List.mem_singleton.mp hrow
       exact ⟨anaFirst, List.mem_singleton_self _, rfl⟩)

/-- The statements of the refresh run before its token expires. -/
def beforeExpiry : PoolEvent Bool Tick → Bool
  | .answer true x => x.now < 100
  | _ => true

theorem token_lives_ana : ∃ response : Response,
    response = ⟨200, .tokens (bcryptServices.sign ⟨1, "ana@x.org"⟩ 5) "r"⟩ := by
  let M := wholeServer bcryptServices "" (fun _ => ⟨5, "r", 0⟩) changeAndRefresh (· = anaSession)
  have hexec : (M.exec (fun _ e => beforeExpiry e) ⟨anaSession, [], fun _ => .idle⟩
      [.start false, .start true, .answer false {}, .answer true {}, .answer false {}, .answer true {}, .answer true {},
        .answer true { uuid := 5 }]).map (fun s => (s.thread true).result.join.map (·.status)) = some (some 200) := by
    decide +kernel
  obtain ⟨s, hs, hstatus⟩ := Option.map_eq_some_iff.mp hexec
  obtain ⟨response, hresult, hok⟩ := Option.map_eq_some_iff.mp hstatus
  have hrefresh : changeAndRefresh true = .api (.postAuthRefresh (.obj [("refresh_token", .str "t0")])) := rfl
  have hrun : M.Run (Before true anaT0.expiresAt) _ _ s := (System.Run.of_exec hs).mono fun t e hin => by
    rintro x rfl
    exact of_decide_eq_true hin
  have hothers : ∀ j, j ≠ true → (changeAndRefresh j).presents ≠ some anaT0.token := by
    rintro (_ | _) hj
    · exact fun hnone => by cases hnone
    · exact absurd rfl hj
  obtain ⟨user, huser, -, h500 | hright⟩ := token_lives (by rintro _ rfl; exact constrained_anaSession)
    (wholeServer_start ..) (List.mem_singleton_self anaT0) hrefresh rfl hothers rfl hrun
    (Option.join_eq_some_iff.mp hresult)
  · rw [hok] at h500
    cases h500
  · obtain rfl := List.mem_singleton.mp huser
    exact ⟨response, hright⟩

end

end Locus.Server
