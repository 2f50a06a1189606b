import Locus.Server.Api

/-!
# `PUT /users/profile`

The handler builds its `UPDATE` as it goes: for each key of the body an assignment `column = $i` and a
parameter, with `i` counted up. The placeholders stay in step with the parameters (`Aligned`), so every column
gets its own value, trimmed, and no other row or column changes (`update_spec`).

`avatar_url` is `null` where the key is absent, never `undefined`, so the test `avatar_url !== undefined` always
holds and the column is set in every update: without the key and without an upload the avatar of the user is
dropped (`avatar_dropped`). An update touches what it was given exactly if there is a key or a file for the
avatar, or there was no avatar (`profile_update_iff`).
-/

namespace Locus.Server

open Lib

/-! ### The body -/

/-- What the handler gets behind `upload.single('avatar')`: `req.body`, and `req.file.filename`. -/
structure ProfileForm where
  body : Json
  /-- multer makes objects without a prototype. -/
  multipart : Bool := false
  file : Option String := none

/-- `v != null ? String(v).trim() : null` -/
def ProfileForm.trimmed (form : ProfileForm) : Option Json → Option (Option String)
  | none => some none
  | some .null => some none
  | some v => (v.jsString form.multipart).map fun text => some (jsTrim text)

/-! ### The handler -/

/-- The `updates`, the `params` and the `i` of the handler. -/
structure Updates where
  updates : List (ProfileColumn × ℕ) := []
  params : List ProfileParam
  i : ℕ := 2

/-- `` updates.push(`column = $${i}`); params.push(v); i++ `` -/
def Updates.push (s : Updates) (column : ProfileColumn) (v : Option String) : Updates where
  updates := s.updates ++ [(column, s.i)]
  params := s.params ++ [.text v]
  i := s.i + 1

/-- `if (Object.prototype.hasOwnProperty.call(body, key)) { ... }` -/
def ProfileForm.pushField (form : ProfileForm) (column : ProfileColumn) (key : String) (s : Updates) :
    Option Updates :=
  match form.body.field? key with
  | none => some s
  | some v => (form.trimmed (some v)).map (s.push column)

/-- `` `${PUBLIC_BASE_URL}/uploads/avatars/${req.file.filename}` `` -/
def avatarFileUrl (publicBaseUrl filename : String) : String := publicBaseUrl ++ "/uploads/avatars/" ++ filename

/-- The statement's parts, before the `try`; `none` where a `String(v)` throws. -/
def profileUpdates (publicBaseUrl : String) (userId : Uuid) (form : ProfileForm) : Option Updates := do
  -- `none` is `undefined`, `some none` is `null`
  let text ← form.trimmed (form.body.field? "avatar_url")
  let avatarUrl : Option (Option String) := some text
  let avatarUrl := match form.file with
    | some filename => some (some (avatarFileUrl publicBaseUrl filename))
    | none => avatarUrl
  let s ← form.pushField .name "name" { params := [.id userId] }
  let s ← form.pushField .phone "phone" s
  let s ← form.pushField .bio "bio" s
  return if avatarUrl ≠ none ∨ form.file.isSome then s.push .avatarUrl (avatarUrl.getD none) else s

/-- `PUT /users/profile` behind `authMiddleware`; `none` is an error outside the `try`, to which Express sends
no answer. -/
def putUsersProfile (publicBaseUrl : String) (reqUser : AuthUser) (form : ProfileForm) :
    Prog Stmt Answer Thrown Cache (Option Response) :=
  match profileUpdates publicBaseUrl reqUser.id form with
  | none => .done none
  | some s =>
    if s.updates = [] then
      Prog.tryCatch (do
        let rows ← Prog.await (Stmt.selectUser reqUser.id)
        match rows with
        | [] => return some (failure 404 "User not found")
        | row :: _ => return some ⟨200, .profile (userRowToProfile row)⟩)
      fun _ => .done none
    else
      Prog.tryCatch (do
        let rows ← Prog.await (Stmt.updateUser s.updates s.params)
        match rows with
        | [] => return some (failure 404 "User not found")
        | row :: _ => return some ⟨200, .profile (userRowToProfile row)⟩)
      fun err => .done (some (failure 500 err.message))

/-! ### What an update is to do -/

/-- The value that was given for a column: `none` where there was no key, nor an upload for the avatar. -/
def ProfileForm.given (publicBaseUrl : String) (form : ProfileForm) : ProfileColumn → Option (Option String)
  | .name => value "name"
  | .phone => value "phone"
  | .bio => value "bio"
  | .avatarUrl => match form.file with
    | some filename => some (some (avatarFileUrl publicBaseUrl filename))
    | none => value "avatar_url"
where
  value (key : String) : Option (Option String) :=
    (form.body.field? key).map fun v => (form.trimmed (some v)).getD none

def ProfileColumn.get (row : UserRow) : ProfileColumn → Option String
  | name => row.name
  | phone => row.phone
  | bio => row.bio
  | avatarUrl => row.avatarUrl

/-- The row has the values that were given, and is as it was but for `updated_at`. -/
structure Touched (given : ProfileColumn → Option (Option String)) (row row' : UserRow) : Prop where
  columns : ∀ c, ProfileColumn.get row' c = (given c).getD (ProfileColumn.get row c)
  rest : row' = { row with name := row'.name, phone := row'.phone, bio := row'.bio, avatarUrl := row'.avatarUrl,
                           updatedAt := row'.updatedAt }

structure TouchesOnly (given : ProfileColumn → Option (Option String)) (userId : Uuid) (db db' : Db) : Prop where
  rows : List.Forall₂ (fun row row' => if row.id = userId then Touched given row row' else row' = row)
    db.users db'.users
  tables : db' = { db with users := db'.users }

/-! ### Placeholders and parameters -/

/-- The parameters are the id and the values, in the order of the placeholders from `$2` on. -/
structure Aligned (userId : Uuid) (s : Updates) (values : List (ProfileColumn × Option String)) : Prop where
  updates : s.updates = (values.zipIdx 2).map fun v => (v.1.1, v.2)
  params : s.params = .id userId :: values.map fun v => .text v.2
  i : s.i = values.length + 2

theorem aligned_start (userId : Uuid) : Aligned userId { params := [.id userId] } [] := ⟨rfl, rfl, rfl⟩

theorem Aligned.push {userId : Uuid} {s : Updates} {values : List (ProfileColumn × Option String)}
    (h : Aligned userId s values) (column : ProfileColumn) (v : Option String) :
    Aligned userId (s.push column v) (values ++ [(column, v)]) := by
  constructor
  · rw [Updates.push, h.updates, h.i, List.zipIdx_append, List.map_append, Nat.add_comm]
    rfl
  · rw [Updates.push, h.params, List.map_append]
    rfl
  · rw [Updates.push, h.i, List.length_append, List.length_singleton]

theorem assignments_zipIdx (userId : Uuid) (before values : List (ProfileColumn × Option String)) :
    assignments (.id userId :: (before ++ values).map fun v => .text v.2)
      ((values.zipIdx (before.length + 2)).map fun v => (v.1.1, v.2)) =
      values.mapM fun v => do return (v.1, ← v.1.store v.2) := by
  induction values generalizing before with
  | nil => rfl
  | cons v values ih =>
    have hplace : placeholder (.id userId :: (before ++ v :: values).map fun v => .text v.2) (before.length + 2) =
        .ok v.2 := by
      have hparam : (ProfileParam.id userId :: (before ++ v :: values).map fun v => ProfileParam.text v.2)[
          before.length + 2 - 1]? = some (.text v.2) := by
        simp
      rw [placeholder, hparam]
    have hrest := ih (before ++ [v])
    have hlength : before.length + 1 + 2 = before.length + 2 + 1 := by omega
    rw [List.append_assoc, List.singleton_append, List.length_append, List.length_singleton, hlength] at hrest
    rw [List.zipIdx_cons, List.map_cons, assignments, hplace, List.mapM_cons, ← hrest]
    simp only [bind, Except.bind]
    cases v.1.store v.2 with
    | error e => rfl
    | ok stored => rfl

/-- **Every placeholder has its own value.** -/
theorem Aligned.assignments {userId : Uuid} {s : Updates} {values : List (ProfileColumn × Option String)}
    (h : Aligned userId s values) :
    assignments s.params s.updates = values.mapM fun v => do return (v.1, ← v.1.store v.2) := by
  rw [h.params, h.updates]
  exact assignments_zipIdx userId [] values

/-! ### What the columns store -/

def IsTrimmed (v : Option String) : Prop := ∀ text, v = some text → ∃ s, text = jsTrim s

theorem varchar_trimmed {n : ℕ} {s stored : String} (h : varchar n (jsTrim s) = .ok stored) : stored = jsTrim s := by
  unfold varchar at h
  split at h
  · cases h
    rfl
  · rename_i hlong
    split at h
    · rename_i hblank
      have hlast : ∃ c, (jsTrim s).toList.getLast? = some c ∧ c ∈ (jsTrim s).toList.drop n := by
        have hdrop : (jsTrim s).toList.drop n ≠ [] := by
          simpa [fits, String.length_toList] using hlong
        refine ⟨((jsTrim s).toList.drop n).getLast hdrop, ?_, List.getLast_mem hdrop⟩
        rw [List.getLast_drop]
        exact List.getLast?_eq_some_getLast _
      obtain ⟨c, hc, hmem⟩ := hlast
      have hspace : c = ' ' := by simpa using List.all_eq_true.mp hblank c hmem
      have hnot := jsTrim_getLast s c hc
      rw [hspace] at hnot
      exact absurd hnot (by decide)
    · cases h

theorem store_trimmed {c : ProfileColumn} {v stored : Option String} (hv : c ≠ .avatarUrl → IsTrimmed v)
    (h : c.store v = .ok stored) : stored = v := by
  have hvarchar : ∀ n, IsTrimmed v → v.mapM (varchar n) = .ok stored → stored = v := by
    intro n hv h
    cases v with
    | none =>
      cases h
      rfl
    | some text =>
      obtain ⟨s, rfl⟩ := hv text rfl
      obtain ⟨t, ht, hstored⟩ := bind_eq_ok.mp (show (varchar n (jsTrim s) >>= fun t => pure (some t)) = .ok stored
        by simpa using h)
      cases hstored
      rw [varchar_trimmed ht]
  cases c with
  | name => exact hvarchar 255 (hv (by decide)) h
  | phone => exact hvarchar 50 (hv (by decide)) h
  | bio =>
    cases h
    rfl
  | avatarUrl =>
    cases h
    rfl

theorem mapM_store {values stored : List (ProfileColumn × Option String)}
    (hvalues : ∀ v ∈ values, v.1 ≠ .avatarUrl → IsTrimmed v.2)
    (h : (values.mapM fun v => do return (v.1, ← v.1.store v.2)) = Except.ok (ε := PgError) stored) :
    stored = values := by
  induction values generalizing stored with
  | nil =>
    cases h
    rfl
  | cons v values ih =>
    rw [List.mapM_cons] at h
    obtain ⟨pair, hpair, h⟩ := bind_eq_ok.mp h
    obtain ⟨rest, hrest, h⟩ := bind_eq_ok.mp h
    obtain ⟨t, ht, hpair⟩ := bind_eq_ok.mp hpair
    cases h
    cases hpair
    rw [ih (fun v hv => hvalues v (List.mem_cons_of_mem _ hv)) hrest,
      store_trimmed (hvalues v List.mem_cons_self) ht]

/-! ### The updates of a form -/

/-- The values that an update sets: those given for name, phone and bio, and the avatar in any case. -/
def ProfileForm.values (publicBaseUrl : String) (form : ProfileForm) : List (ProfileColumn × Option String) :=
  ([.name, .phone, .bio].filterMap fun c => (form.given publicBaseUrl c).map fun v => (c, v)) ++
    [(.avatarUrl, (form.given publicBaseUrl .avatarUrl).getD none)]

theorem pushField_spec {form : ProfileForm} {userId : Uuid} {column : ProfileColumn} {key : String} {s s' : Updates}
    {values : List (ProfileColumn × Option String)} (hs : Aligned userId s values)
    (h : form.pushField column key s = some s') :
    Aligned userId s' (values ++ ((ProfileForm.given.value form key).map fun v => (column, v)).toList) := by
  unfold ProfileForm.pushField at h
  unfold ProfileForm.given.value
  cases hfield : form.body.field? key with
  | none =>
    rw [hfield] at h
    cases h
    simpa using hs
  | some v =>
    rw [hfield] at h
    obtain ⟨text, htext, rfl⟩ := Option.map_eq_some_iff.mp h
    simpa [htext] using hs.push column text

theorem trimmed_isTrimmed {form : ProfileForm} {v : Option Json} {text : Option String}
    (h : form.trimmed v = some text) : IsTrimmed text := by
  intro s hs
  subst hs
  unfold ProfileForm.trimmed at h
  split at h
  · cases h
  · cases h
  · obtain ⟨t, -, ht⟩ := Option.map_eq_some_iff.mp h
    exact ⟨t, (Option.some.inj ht).symm⟩

theorem value_isTrimmed {form : ProfileForm} {key : String} {v : Option String}
    (h : ProfileForm.given.value form key = some v) : IsTrimmed v := by
  unfold ProfileForm.given.value at h
  obtain ⟨w, -, rfl⟩ := Option.map_eq_some_iff.mp h
  cases htext : form.trimmed (some w) with
  | none =>
    intro s hs
    cases hs
  | some text => exact trimmed_isTrimmed htext

theorem values_isTrimmed (publicBaseUrl : String) (form : ProfileForm) :
    ∀ v ∈ form.values publicBaseUrl, v.1 ≠ .avatarUrl → IsTrimmed v.2 := by
  intro v hv hc
  rcases List.mem_append.mp hv with hv | hv
  · obtain ⟨c, -, hv⟩ := List.mem_filterMap.mp hv
    obtain ⟨w, hw, rfl⟩ := Option.map_eq_some_iff.mp hv
    cases c with
    | avatarUrl => exact absurd rfl hc
    | name | phone | bio => exact value_isTrimmed hw
  · rw [List.mem_singleton.mp hv] at hc
    exact absurd rfl hc

/-- **The placeholders of the statement are those of the values**, and there is at least the avatar's. -/
theorem profileUpdates_spec {publicBaseUrl : String} {userId : Uuid} {form : ProfileForm} {s : Updates}
    (h : profileUpdates publicBaseUrl userId form = some s) : Aligned userId s (form.values publicBaseUrl) := by
  unfold profileUpdates at h
  obtain ⟨text, htext, h⟩ := Option.bind_eq_some_iff.mp h
  obtain ⟨s₁, h₁, h⟩ := Option.bind_eq_some_iff.mp h
  obtain ⟨s₂, h₂, h⟩ := Option.bind_eq_some_iff.mp h
  obtain ⟨s₃, h₃, h⟩ := Option.bind_eq_some_iff.mp h
  have haligned := pushField_spec (pushField_spec (pushField_spec (aligned_start userId) h₁) h₂) h₃
  have havatar : (form.given publicBaseUrl .avatarUrl).getD none =
      (match form.file with
        | some filename => some (some (avatarFileUrl publicBaseUrl filename))
        | none => some text).getD none := by
    unfold ProfileForm.given
    cases form.file with
    | some filename => rfl
    | none =>
      dsimp only
      unfold ProfileForm.given.value
      cases hfield : form.body.field? "avatar_url" with
      | none =>
        rw [hfield] at htext
        cases htext
        rfl
      | some v =>
        rw [hfield] at htext
        rw [Option.map_some, htext]
        rfl
  -- `avatar_url !== undefined` holds, with the key and without it
  have hdefined : (match form.file with
      | some filename => some (some (avatarFileUrl publicBaseUrl filename))
      | none => some text) ≠ none ∨ form.file.isSome = true := by
    left
    cases form.file <;> simp
  rw [if_pos hdefined, ← havatar] at h
  cases h
  have hpush := haligned.push .avatarUrl ((form.given publicBaseUrl .avatarUrl).getD none)
  have hvalues : form.values publicBaseUrl = [] ++ ((ProfileForm.given.value form "name").map fun v =>
        (ProfileColumn.name, v)).toList ++ ((ProfileForm.given.value form "phone").map fun v =>
        (ProfileColumn.phone, v)).toList ++ ((ProfileForm.given.value form "bio").map fun v =>
        (ProfileColumn.bio, v)).toList ++ [(.avatarUrl, (form.given publicBaseUrl .avatarUrl).getD none)] := by
    unfold ProfileForm.values
    congr 1
    rw [List.filterMap_cons, List.filterMap_cons, List.filterMap_cons, List.filterMap_nil]
    cases hname : ProfileForm.given.value form "name" <;> cases hphone : ProfileForm.given.value form "phone" <;>
      cases hbio : ProfileForm.given.value form "bio" <;> simp [ProfileForm.given, hname, hphone, hbio]
  rw [hvalues]
  exact hpush

/-! ### What an update does -/

/-- The row with the values that were given, and the avatar that was given or none. -/
def ProfileForm.change (publicBaseUrl : String) (form : ProfileForm) (now : Time) (row : UserRow) : UserRow :=
  { row with
    name := (form.given publicBaseUrl .name).getD row.name
    phone := (form.given publicBaseUrl .phone).getD row.phone
    bio := (form.given publicBaseUrl .bio).getD row.bio
    avatarUrl := (form.given publicBaseUrl .avatarUrl).getD none
    updatedAt := now }

def ProfileForm.update (publicBaseUrl : String) (form : ProfileForm) (userId : Uuid) (now : Time) (db : Db) : Db :=
  { db with users := db.users.map fun row => if row.id = userId then form.change publicBaseUrl now row else row }

theorem foldl_values (publicBaseUrl : String) (form : ProfileForm) (now : Time) (row : UserRow) :
    { (form.values publicBaseUrl).foldl (fun row v => ProfileColumn.set row v.1 v.2) row with updatedAt := now } =
      form.change publicBaseUrl now row := by
  unfold ProfileForm.values ProfileForm.change
  rw [List.foldl_append, List.filterMap_cons, List.filterMap_cons, List.filterMap_cons, List.filterMap_nil]
  cases form.given publicBaseUrl .name <;> cases form.given publicBaseUrl .phone <;>
    cases form.given publicBaseUrl .bio <;> rfl

/-- **An update that is answered with 200** has changed the row of the user, and nothing else. -/
theorem update_spec {svc : Services} {publicBaseUrl : String} {reqUser : AuthUser} {form : ProfileForm}
    {x : ℕ → Tick} {db db' : Db} {cache cache' : Cache} {r : Response}
    (hrun : (putUsersProfile publicBaseUrl reqUser form).run (exec svc) x db cache = (some r, db', cache'))
    (h200 : r.status = 200) :
    (∃ row ∈ db.users, row.id = reqUser.id) ∧ db' = form.update publicBaseUrl reqUser.id (x 0).now db := by
  unfold putUsersProfile at hrun
  cases hupdates : profileUpdates publicBaseUrl reqUser.id form with
  | none =>
    rw [hupdates] at hrun
    cases hrun
  | some s =>
    have haligned := profileUpdates_spec hupdates
    have hne : s.updates ≠ [] := by
      rw [haligned.updates]
      simp [ProfileForm.values]
    rw [hupdates] at hrun
    dsimp only at hrun
    rw [if_neg hne] at hrun
    obtain ⟨rows, d, hok, hexec⟩ | ⟨e, hexec, -⟩ := exec_cases svc (x 0) db (.updateUser s.updates s.params)
    · have hrest := ((Prog.tryCatch_run _ _ cache).1 _ hexec).1.symm.trans hrun
      obtain ⟨userId, values, hid, hvalues, rfl, rfl⟩ := updateUser_ok hok
      rw [haligned.params] at hid
      cases hid
      rw [haligned.assignments] at hvalues
      obtain rfl := mapM_store (values_isTrimmed publicBaseUrl form) hvalues
      simp only [foldl_values] at hrest ⊢
      cases hselect : selectUser db reqUser.id with
      | nil =>
        rw [hselect] at hrest
        cases hrest
        cases h200
      | cons row rest =>
        rw [hselect] at hrest
        cases hrest
        have hrow : row ∈ selectUser db reqUser.id := by
          rw [hselect]
          exact List.mem_cons_self
        obtain ⟨hmem, hid⟩ := List.mem_filter.mp hrow
        exact ⟨⟨row, hmem, by simpa using hid⟩, rfl⟩
    · have hrest := ((Prog.tryCatch_run _ _ cache).2 _ hexec).1.symm.trans hrun
      cases hrest
      cases h200

theorem touched_change_iff (publicBaseUrl : String) (form : ProfileForm) (now : Time) (row : UserRow) :
    Touched (form.given publicBaseUrl) row (form.change publicBaseUrl now row) ↔
      (form.given publicBaseUrl .avatarUrl).isSome = true ∨ row.avatarUrl = none := by
  constructor
  · intro h
    cases hgiven : form.given publicBaseUrl .avatarUrl with
    | some v => exact .inl rfl
    | none =>
      have havatar := h.columns .avatarUrl
      simp only [ProfileForm.change, ProfileColumn.get, hgiven, Option.getD_none] at havatar
      exact .inr havatar.symm
  · intro h
    refine ⟨fun c => ?_, rfl⟩
    cases c with
    | name | phone | bio => rfl
    | avatarUrl =>
      simp only [ProfileForm.change, ProfileColumn.get]
      rcases h with h | h
      · obtain ⟨v, hv⟩ := Option.isSome_iff_exists.mp h
        rw [hv]
        rfl
      · rw [h]

theorem given_avatar_isSome (publicBaseUrl : String) (form : ProfileForm) :
    (form.given publicBaseUrl .avatarUrl).isSome = true ↔
      (form.body.field? "avatar_url").isSome = true ∨ form.file.isSome = true := by
  unfold ProfileForm.given ProfileForm.given.value
  cases form.file <;> simp

theorem forall₂_map_iff {α : Type} (R : α → α → Prop) (f : α → α) (rows : List α) :
    List.Forall₂ R rows (rows.map f) ↔ ∀ row ∈ rows, R row (f row) := by
  rw [List.forall₂_map_right_iff, List.forall₂_same]

/-- **A profile update touches only what it was given** if and only if there is a key or a file for the avatar, or
the user has no avatar: otherwise it is dropped. -/
theorem profile_update_iff {svc : Services} {publicBaseUrl : String} {reqUser : AuthUser} {form : ProfileForm}
    {x : ℕ → Tick} {db db' : Db} {cache cache' : Cache} {r : Response}
    (hrun : (putUsersProfile publicBaseUrl reqUser form).run (exec svc) x db cache = (some r, db', cache'))
    (h200 : r.status = 200) :
    TouchesOnly (form.given publicBaseUrl) reqUser.id db db' ↔
      (form.body.field? "avatar_url").isSome = true ∨ form.file.isSome = true ∨
        ∀ row ∈ db.users, row.id = reqUser.id → row.avatarUrl = none := by
  obtain ⟨-, rfl⟩ := update_spec hrun h200
  have hrows : TouchesOnly (form.given publicBaseUrl) reqUser.id db
      (form.update publicBaseUrl reqUser.id (x 0).now db) ↔ ∀ row ∈ db.users, row.id = reqUser.id →
        (form.given publicBaseUrl .avatarUrl).isSome = true ∨ row.avatarUrl = none := by
    constructor
    · intro h row hrow hrowId
      have htouched := (forall₂_map_iff _ _ _).mp h.rows row hrow
      rw [if_pos hrowId, if_pos hrowId] at htouched
      exact (touched_change_iff ..).mp htouched
    · intro h
      refine ⟨(forall₂_map_iff _ _ _).mpr fun row hrow => ?_, rfl⟩
      split
      · rename_i hrowId
        exact (touched_change_iff ..).mpr (h row hrow hrowId)
      · rfl
  rw [hrows, given_avatar_isSome]
  constructor
  · intro h
    by_cases hgiven : (form.body.field? "avatar_url").isSome = true ∨ form.file.isSome = true
    · exact hgiven.imp id .inl
    · exact .inr (.inr fun row hrow hrowId => (h row hrow hrowId).resolve_left hgiven)
  · rintro (h | h | h) row hrow hrowId
    · exact .inl (.inl h)
    · exact .inl (.inr h)
    · exact .inr (h row hrow hrowId)

/-! ### The avatar is dropped -/

def anaWithAvatar : Db :=
  { users := [{ id := 1, email := "ana@x.org", name := none, avatarUrl := some "https://x.org/ana.jpg",
                passwordHash := none, createdAt := 0, updatedAt := 0 }] }

def nameForm (fields : List (String × Json)) : ProfileForm := { body := .obj (("name", .str " Ana ") :: fields) }

theorem nameForm_run (fields : List (String × Json))
    (h : (((putUsersProfile "https://x.org" ⟨1, "ana@x.org"⟩ (nameForm fields)).run (exec plainServices) (fun _ => {})
      anaWithAvatar []).1.map (·.status)) = some 200) :
    ∃ r db' cache', (putUsersProfile "https://x.org" ⟨1, "ana@x.org"⟩ (nameForm fields)).run (exec plainServices)
      (fun _ => {}) anaWithAvatar [] = (some r, db', cache') ∧ r.status = 200 := by
  obtain ⟨r, hr, hstatus⟩ := Option.map_eq_some_iff.mp h
  exact ⟨r, _, _, Prod.ext hr rfl, hstatus⟩

/-- With the key `avatar_url` the update does what it is asked. -/
theorem profile_update_iff_key : ∃ r db' cache',
    (putUsersProfile "https://x.org" ⟨1, "ana@x.org"⟩ (nameForm [("avatar_url", .null)])).run (exec plainServices)
      (fun _ => {}) anaWithAvatar [] = (some r, db', cache') ∧
    TouchesOnly ((nameForm [("avatar_url", .null)]).given "https://x.org") 1 anaWithAvatar db' := by
  obtain ⟨r, db', cache', hrun, h200⟩ := nameForm_run [("avatar_url", .null)] (by decide +kernel)
  exact ⟨r, db', cache', hrun, (profile_update_iff hrun h200).mpr (.inl (by decide +kernel))⟩

/-- **A new name drops the picture.** -/
theorem avatar_dropped :
    ¬ ∀ (svc : Services) (publicBaseUrl : String) (reqUser : AuthUser) (form : ProfileForm) (x : ℕ → Tick)
      (db db' : Db) (cache cache' : Cache) (r : Response),
      (putUsersProfile publicBaseUrl reqUser form).run (exec svc) x db cache = (some r, db', cache') →
      r.status = 200 → TouchesOnly (form.given publicBaseUrl) reqUser.id db db' := by
  intro hclaim
  obtain ⟨r, db', cache', hrun, h200⟩ := nameForm_run [] (by decide +kernel)
  obtain ⟨-, rfl⟩ := update_spec hrun h200
  have htouched := (forall₂_map_iff _ _ _).mp (hclaim _ _ _ _ _ _ _ _ _ _ hrun h200).rows _ List.mem_cons_self
  rw [if_pos rfl, if_pos rfl] at htouched
  have havatar := htouched.columns .avatarUrl
  exact absurd havatar (by decide +kernel)

end Locus.Server
