import Locus.Lib.Async
import Locus.Mobile.Keychain
import Locus.Server.Json

/-!
# The timeouts of the token store

`utils/keychain.ts` guards its calls of the Keychain with a timer of 2 s (`withTimeout`), but for one: the
reset with which `getTokens` recovers from a read that fails, is late or finds no valid pair. So `saveTokens` and
`clearTokens` always return within one timer, and `getTokens` does unless it gets to that reset and the reset
hangs (`keychain_guard_iff`): then every API request, whose interceptor awaits `getTokens`, and `loadUser` hang
with it (`reset_hangs`).
-/

namespace Locus.Mobile

open Lib

/-! ### The module -/

/-- `KEYCHAIN_TIMEOUT_MS` -/
def keychainTimeoutMs : ℕ := 2000

/-- What `getGenericPassword` may resolve with: a falsy value, a value with these members (`none` for what is no
string), or one that throws when they are read. -/
inductive Credentials
  | falsy
  | fields (username password : Option String)
  | throws

/-- How the calls of `react-native-keychain` go that one function makes; errors are texts. -/
structure KeychainCalls where
  getGenericPassword : Async String Credentials
  setGenericPassword : Async String Unit
  resetGenericPassword : Async String Unit

/-- `withTimeout(p, ms, label)` -/
def withTimeout {α : Type} (p : Async String α) (ms : ℕ) (label : String) : Async String α :=
  p.race (.timer ms ("[keychain] " ++ label ++ " timed out after " ++ toString ms ++ "ms"))

def validPair : Option String → Option String → Option Tokens
  | some accessToken, some refreshToken =>
    if Tokens.valid ⟨accessToken, refreshToken⟩ then some ⟨accessToken, refreshToken⟩ else none
  | _, _ => none

/-- `await Keychain.resetGenericPassword({ service: SERVICE }).catch(() => {}); return fallbackTokens` -/
def resetAndFallBack (k : KeychainCalls) (fallbackTokens : Option Tokens) : Async String (Option Tokens) := do
  k.resetGenericPassword.tryCatch fun _ => pure ()
  return fallbackTokens

/-- `getTokens()`, with `fallbackTokens` as it is when it is returned. -/
def getTokens (k : KeychainCalls) (fallbackTokens : Option Tokens) : Async String (Option Tokens) :=
  Async.tryCatch (do
    let result ← withTimeout k.getGenericPassword keychainTimeoutMs "getTokens"
    match result with
    | .falsy => return fallbackTokens
    | .throws => Async.reject "TypeError"
    | .fields username password =>
      match validPair username password with
      | none => resetAndFallBack k fallbackTokens
      | some tokens => return some tokens)
  fun _ => resetAndFallBack k fallbackTokens

/-- `saveTokens(accessToken, refreshToken)`: its result is `fallbackTokens` afterwards. -/
def saveTokens (k : KeychainCalls) (accessToken refreshToken : String) (fallbackTokens : Option Tokens) :
    Async String (Option Tokens) :=
  if !Tokens.valid ⟨accessToken, refreshToken⟩ then pure fallbackTokens
  else Async.tryCatch (do
    withTimeout k.setGenericPassword keychainTimeoutMs "saveTokens"
    return none)
  fun _ => pure (some ⟨accessToken, refreshToken⟩)

/-- `clearTokens()` -/
def clearTokens (k : KeychainCalls) : Async String Unit :=
  (withTimeout k.resetGenericPassword keychainTimeoutMs "clearTokens").tryCatch fun _ => pure ()

/-! ### Their callers -/

/-- The request interceptor: the `Authorization` header. -/
def requestInterceptor (k : KeychainCalls) (fallbackTokens : Option Tokens) : Async String (Option String) := do
  let tokens ← getTokens k fallbackTokens
  return (tokens.filter fun t => t.accessToken ≠ "").map fun t => "Bearer " ++ t.accessToken

/-- A request of `api`: the interceptor, and what follows it with the header. -/
def apiRequest {α : Type} (k : KeychainCalls) (fallbackTokens : Option Tokens)
    (exchange : Option String → Async String α) : Async String α := do
  let authorization ← requestInterceptor k fallbackTokens
  exchange authorization

/-- `loadUser`: the user afterwards, if any. Its request of `/auth/me` is `getMe`, the calls of its
`clearTokens` are `clear`. -/
def loadUser {α : Type} (k : KeychainCalls) (fallbackTokens : Option Tokens) (getMe : Async String α)
    (clear : KeychainCalls) : Async String (Option α) :=
  Async.tryCatch (do
    let tokens ← getTokens k fallbackTokens
    match tokens with
    | none => return none
    | some tokens =>
      -- `!tokens?.accessToken?.trim()`
      if Server.jsTrim tokens.accessToken = "" then return none
      else do
        let user ← getMe
        return some user)
  fun _ => do
    clearTokens clear
    return none

/-! ### When they return -/

def Credentials.clean : Credentials → Bool
  | falsy => true
  | fields username password => (validPair username password).isSome
  | throws => false

namespace KeychainCalls

def ReadsInTime (k : KeychainCalls) : Prop :=
  ∃ t v, k.getGenericPassword = .settles t (.ok v) ∧ t ≤ keychainTimeoutMs ∧ v.clean = true

/-- When `getTokens` is done with the read. -/
def readTime (k : KeychainCalls) : ℕ :=
  match k.getGenericPassword with
  | .never => keychainTimeoutMs
  | .settles t _ => min t keychainTimeoutMs

end KeychainCalls

theorem readTime_le (k : KeychainCalls) : k.readTime ≤ keychainTimeoutMs := by
  unfold KeychainCalls.readTime
  split
  · exact le_refl _
  · exact min_le_right _ _

theorem resetAndFallBack_tryCatch (k : KeychainCalls) (fallbackTokens : Option Tokens) (t : ℕ)
    (handler : String → Async String (Option Tokens)) :
    ((resetAndFallBack k fallbackTokens).after t).tryCatch handler = (resetAndFallBack k fallbackTokens).after t := by
  unfold resetAndFallBack
  cases k.resetGenericPassword with
  | never => rfl
  | settles s r => cases r <;> rfl

/-- **The two ways of `getTokens`**: it returns with what it read, or goes on to the reset. -/
theorem getTokens_eq (k : KeychainCalls) (fallbackTokens : Option Tokens) :
    (k.ReadsInTime ∧ ∃ tokens, getTokens k fallbackTokens = .settles k.readTime (.ok tokens)) ∨
    (¬k.ReadsInTime ∧ getTokens k fallbackTokens = (resetAndFallBack k fallbackTokens).after k.readTime) := by
  by_cases hread : k.getGenericPassword.Within keychainTimeoutMs
  · obtain ⟨t, r, hget, ht⟩ := hread
    have htime : k.readTime = t := by
      rw [KeychainCalls.readTime, hget]
      exact min_eq_left ht
    rw [getTokens, withTimeout, hget, Async.race_timer_of_le ht, htime]
    cases r with
    | error e =>
      refine .inr ⟨?_, rfl⟩
      rintro ⟨t', v, hget', -, -⟩
      rw [hget] at hget'
      cases hget'
    | ok v =>
      have hclean : k.ReadsInTime ↔ v.clean = true := by
        constructor
        · rintro ⟨t', v', hget', -, hv⟩
          rw [hget] at hget'
          cases hget'
          exact hv
        · intro hv
          exact ⟨t, v, hget, ht, hv⟩
      rw [hclean]
      cases v with
      | falsy => exact .inl ⟨rfl, fallbackTokens, rfl⟩
      | throws => exact .inr ⟨by decide, rfl⟩
      | fields username password =>
        cases hpair : validPair username password with
        | some tokens =>
          refine .inl ⟨by rw [Credentials.clean, hpair]; rfl, some tokens, ?_⟩
          rw [Async.bind_ok]
          dsimp only
          rw [hpair]
          rfl
        | none =>
          refine .inr ⟨by rw [Credentials.clean, hpair]; decide, ?_⟩
          rw [Async.bind_ok]
          dsimp only
          rw [hpair]
          exact resetAndFallBack_tryCatch ..
  · have htime : k.readTime = keychainTimeoutMs := by
      unfold KeychainCalls.readTime
      split
      · rfl
      · rename_i t r hget
        rw [hget, Async.within_settles] at hread
        exact min_eq_right (by omega)
    rw [getTokens, withTimeout, Async.race_timer_of_not hread, htime]
    refine .inr ⟨?_, rfl⟩
    rintro ⟨t, v, hget, ht, -⟩
    exact hread ⟨t, .ok v, hget, ht⟩

theorem resetAndFallBack_within (k : KeychainCalls) (fallbackTokens : Option Tokens) (n : ℕ) :
    (resetAndFallBack k fallbackTokens).Within n ↔ k.resetGenericPassword.Within n := by
  unfold resetAndFallBack
  cases k.resetGenericPassword with
  | never => simp
  | settles t r =>
    cases r with
    | ok a => simp
    | error e => simp

/-- **`getTokens` returns in time exactly if it needs no reset, or the reset is back in time.** -/
theorem getTokens_within_iff (k : KeychainCalls) (fallbackTokens : Option Tokens) {n : ℕ}
    (hn : keychainTimeoutMs ≤ n) : (getTokens k fallbackTokens).Within n ↔
      k.ReadsInTime ∨ ∃ m, k.resetGenericPassword.Within m ∧ k.readTime + m ≤ n := by
  have hread := readTime_le k
  obtain ⟨hclean, tokens, heq⟩ | ⟨hclean, heq⟩ := getTokens_eq k fallbackTokens
  · rw [heq, Async.within_settles]
    constructor
    · intro _
      exact .inl hclean
    · intro _
      omega
  · rw [heq, Async.within_after]
    simp only [resetAndFallBack_within, hclean, false_or]

theorem saveTokens_within (k : KeychainCalls) (accessToken refreshToken : String) (fallbackTokens : Option Tokens) :
    (saveTokens k accessToken refreshToken fallbackTokens).Within keychainTimeoutMs := by
  unfold saveTokens
  split
  · exact Async.within_settles.mpr (Nat.zero_le _)
  · have hset := Async.race_timer_within k.setGenericPassword keychainTimeoutMs
      ("[keychain] saveTokens timed out after " ++ toString keychainTimeoutMs ++ "ms")
    have hbody := hset.bind (f := fun _ => pure (none : Option Tokens)) fun _ => Async.within_pure none 0
    exact hbody.tryCatch fun _ => Async.within_pure _ 0

theorem clearTokens_within (k : KeychainCalls) : (clearTokens k).Within keychainTimeoutMs := by
  have hreset := Async.race_timer_within k.resetGenericPassword keychainTimeoutMs
    ("[keychain] clearTokens timed out after " ++ toString keychainTimeoutMs ++ "ms")
  exact hreset.tryCatch fun _ => Async.within_pure () 0

/-! ### Whether anything hangs -/

/-- The three functions return within a number of timers, whatever they are called with. -/
structure Guarded (k : KeychainCalls) (timers : ℕ) : Prop where
  getTokens : ∀ fallbackTokens, (getTokens k fallbackTokens).Within (timers * keychainTimeoutMs)
  saveTokens : ∀ accessToken refreshToken fallbackTokens,
    (saveTokens k accessToken refreshToken fallbackTokens).Within (timers * keychainTimeoutMs)
  clearTokens : (clearTokens k).Within (timers * keychainTimeoutMs)

/-- No request of `api` and no `loadUser` waits forever, if what follows the Keychain does not. -/
structure NeverHangs (k : KeychainCalls) : Prop where
  apiRequest : ∀ {α : Type} (fallbackTokens : Option Tokens) (exchange : Option String → Async String α) (n : ℕ),
    (∀ authorization, (exchange authorization).Within n) → ∃ m, (apiRequest k fallbackTokens exchange).Within m
  loadUser : ∀ {α : Type} (fallbackTokens : Option Tokens) (getMe : Async String α) (clear : KeychainCalls) (n : ℕ),
    getMe.Within n → ∃ m, (loadUser k fallbackTokens getMe clear).Within m

theorem neverHangs_of_getTokens {k : KeychainCalls} {n : ℕ}
    (h : ∀ fallbackTokens, (getTokens k fallbackTokens).Within n) : NeverHangs k := by
  constructor
  · intro α fallbackTokens exchange m hexchange
    have hinterceptor : (requestInterceptor k fallbackTokens).Within (n + 0) :=
      (h fallbackTokens).bind fun _ => Async.within_pure _ 0
    exact ⟨_, hinterceptor.bind hexchange⟩
  · intro α fallbackTokens getMe clear m hgetMe
    have hbody : ∀ tokens : Option Tokens, Async.Within (match tokens with
        | none => return none
        | some tokens =>
          if Server.jsTrim tokens.accessToken = "" then return none
          else do
            let user ← getMe
            return some user : Async String (Option α)) m := by
      intro tokens
      cases tokens with
      | none => exact Async.within_pure none m
      | some tokens =>
        dsimp only
        split
        · exact Async.within_pure none m
        · exact hgetMe.bind fun _ => Async.within_pure _ 0
    refine ⟨_, ((h fallbackTokens).bind hbody).tryCatch (n := keychainTimeoutMs + 0) fun _ => ?_⟩
    exact (clearTokens_within clear).bind fun _ => Async.within_pure none 0

theorem getTokens_of_neverHangs {k : KeychainCalls} (h : NeverHangs k) (fallbackTokens : Option Tokens) :
    ∃ n, (getTokens k fallbackTokens).Within n := by
  obtain ⟨n, hn⟩ := h.apiRequest fallbackTokens (fun _ => (pure () : Async String Unit)) 0
    fun _ => Async.within_pure () 0
  cases hget : getTokens k fallbackTokens with
  | never =>
    rw [apiRequest, requestInterceptor, hget] at hn
    exact absurd hn (Async.not_within_never n)
  | settles t r => exact ⟨t, Async.within_settles.mpr (le_refl t)⟩

/-- **The guard holds exactly as far as the unguarded reset lets it**: within any number of timers, and at all. -/
theorem keychain_guard_iff (k : KeychainCalls) (timers : ℕ) :
    (Guarded k (timers + 1) ↔ k.ReadsInTime ∨
      ∃ n, k.resetGenericPassword.Within n ∧ k.readTime + n ≤ (timers + 1) * keychainTimeoutMs) ∧
    (NeverHangs k ↔ k.ReadsInTime ∨ ∃ n, k.resetGenericPassword.Within n) := by
  have htimers : keychainTimeoutMs ≤ (timers + 1) * keychainTimeoutMs := Nat.le_mul_of_pos_left _ (by omega)
  refine ⟨⟨fun h => ?_, fun h => ?_⟩, fun h => ?_, fun h => ?_⟩
  · exact (getTokens_within_iff k none htimers).mp (h.getTokens none)
  · refine ⟨fun fallbackTokens => (getTokens_within_iff k fallbackTokens htimers).mpr h, fun a r f => ?_, ?_⟩
    · exact (saveTokens_within k a r f).mono htimers
    · exact (clearTokens_within k).mono htimers
  · obtain ⟨n, hn⟩ := getTokens_of_neverHangs h none
    have hlate := (getTokens_within_iff k none (Nat.le_add_left keychainTimeoutMs n)).mp
      (hn.mono (Nat.le_add_right n keychainTimeoutMs))
    exact hlate.imp id fun ⟨m, hm, _⟩ => ⟨m, hm⟩
  · have hread := readTime_le k
    rcases h with h | ⟨n, hn⟩
    · exact neverHangs_of_getTokens fun f => (getTokens_within_iff k f (le_refl _)).mpr (.inl h)
    · exact neverHangs_of_getTokens fun f => (getTokens_within_iff k f (Nat.le_add_right keychainTimeoutMs n)).mpr
        (.inr ⟨n, hn, by omega⟩)

def deadKeychain : KeychainCalls := ⟨.never, .never, .never⟩

/-- **A dead Keychain hangs the app**: no number of timers bounds `getTokens`. -/
theorem reset_hangs : ¬ ∃ timers, ∀ k : KeychainCalls, Guarded k timers := by
  rintro ⟨timers, h⟩
  exact Async.not_within_never _ ((h deadKeychain).getTokens none)

end Locus.Mobile
