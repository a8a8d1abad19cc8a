import DirectoryGateway.Proofs.Text.Numerals
import DirectoryGateway.Proofs.Text.Splitting
import DirectoryGateway.Settings.Basic
import Mathlib.Data.List.Forall2

/-!
# Which variables are accepted

Settings can be read exactly if each variable that is looked at meets its condition. Conditions are looked at in an order, and
the fault that is reported is that of the first one that is not met; all other variables are free.
-/

namespace DirectoryGateway.Settings

open DirectoryGateway.Text

variable {vars : Variables}

/-! ### Schedules -/

/-- A delay in whole milliseconds, no longer than a minute. -/
def WrittenDelay (part : List Char) (delay : Nat) : Prop :=
  Numeral (trim part) delay ∧ delay ≤ 60000

/-- A blank text for the schedule without delays, or delays with commas between them that are shorter than a minute all
together. -/
def WrittenSchedule (text : String) (delays : List Nat) : Prop :=
  ((∀ c ∈ text.toList, isBlank c = true) ∧ delays = []) ∨
    ((∃ c ∈ text.toList, isBlank c = false) ∧
      List.Forall₂ WrittenDelay (text.toList.splitOn ',') delays ∧ delays.sum < 60000)

theorem readDelay_eq_ok_iff {part : List Char} {delay : Nat} :
    readDelay part = .ok delay ↔ WrittenDelay part delay := by
  have hwide : maxDelay ≤ maxWord64 := by decide
  unfold readDelay
  cases hr : readNat maxWord64 (trim part) with
  | error fault =>
    simp only [reduceCtorEq, false_iff]
    rintro ⟨hnumeral, hle⟩
    rw [readNat_eq_ok_iff.mpr ⟨hnumeral, Nat.le_trans hle hwide⟩] at hr
    cases hr
  | ok n =>
    obtain ⟨hnumeral, -⟩ := readNat_eq_ok_iff.mp hr
    constructor
    · intro h
      dsimp only at h
      split at h
      · cases h
        exact ⟨hnumeral, ‹_›⟩
      · cases h
    · rintro ⟨hnumeral', hle⟩
      have hr' := readNat_eq_ok_iff.mpr ⟨hnumeral', Nat.le_trans hle hwide⟩
      rw [hr] at hr'
      cases hr'
      exact if_pos hle

theorem readDelays_eq_ok_iff {parts : List (List Char)} {delays : List Nat} :
    readDelays parts = .ok delays ↔ List.Forall₂ WrittenDelay parts delays := by
  induction parts generalizing delays with
  | nil => simp [readDelays, eq_comm]
  | cons part parts ih =>
    rw [List.forall₂_cons_left_iff, readDelays]
    simp only [← readDelay_eq_ok_iff, ← ih]
    cases readDelay part with
    | error fault => simp
    | ok delay =>
      cases readDelays parts with
      | error fault => simp
      | ok rest => simp [eq_comm]

theorem readBackoff_eq_ok_iff {text : String} {delays : List Nat} :
    readBackoff text = .ok delays ↔ WrittenSchedule text delays := by
  unfold readBackoff WrittenSchedule
  rw [← readDelays_eq_ok_iff, ← splitAt_eq_splitOn]
  by_cases hblank : blank text = true
  · have hall := (blank_iff text).mp hblank
    have hnone : ¬ ∃ c ∈ text.toList, isBlank c = false := by
      rintro ⟨c, hc, hvisible⟩
      rw [hall c hc] at hvisible
      cases hvisible
    rw [if_pos hblank]
    simp only [Except.ok.injEq, eq_comm (a := []), hnone, false_and, or_false]
    exact ⟨fun h => ⟨hall, h⟩, And.right⟩
  · have hsome := (not_blank_iff text).mp (Bool.eq_false_iff.mpr hblank)
    have hnot : ¬ ∀ c ∈ text.toList, isBlank c = true := fun hall => hblank ((blank_iff text).mpr hall)
    rw [if_neg hblank]
    simp only [hnot, false_and, false_or, hsome, true_and]
    cases readDelays (splitAt ',' text.toList) with
    | error fault => simp
    | ok ds =>
      have hsum : ds.foldr (· + ·) 0 = ds.sum := rfl
      have hlimit : 1000 * requestSeconds = 60000 := rfl
      simp only [hsum, hlimit]
      split
      · next hlt =>
        simp only [Except.ok.injEq]
        exact ⟨fun h => ⟨h, h ▸ hlt⟩, And.left⟩
      · next hlong =>
        simp only [reduceCtorEq, Except.ok.injEq, false_iff]
        rintro ⟨rfl, hlt⟩
        exact hlong hlt

/-! ### Numbers -/

/-- A number that a variable is set to, within a range, or a default if it is not set. -/
def NumberOf (vars : Variables) (name : String) (default least greatest n : Nat) : Prop :=
  (vars.lookup name = none ∧ n = default) ∨
    ∃ given, vars.lookup name = some given ∧ Numeral (trim given.toList) n ∧ least ≤ n ∧ n ≤ greatest

/-- A variable that is not set, or is set to a number in a range. -/
def InRange (vars : Variables) (name : String) (least greatest : Nat) : Prop :=
  ∀ given, vars.lookup name = some given →
    ∃ n, Numeral (trim given.toList) n ∧ least ≤ n ∧ n ≤ greatest

theorem exists_numberOf_iff {name : String} (default : Nat) {least greatest : Nat} :
    (∃ n, NumberOf vars name default least greatest n) ↔ InRange vars name least greatest := by
  unfold NumberOf InRange
  cases vars.lookup name with
  | none => simp
  | some given => simp

theorem checkRange_eq_ok_iff {name : String} {least greatest value n : Int} :
    checkRange name least greatest value = .ok n ↔ n = value ∧ least ≤ value ∧ value ≤ greatest := by
  unfold checkRange
  split
  · simp only [reduceCtorEq, false_iff]
    omega
  · simp only [Except.ok.injEq]
    omega

theorem readBounded_eq_ok_iff {name : String} {default least greatest n : Nat}
    (bounded : greatest ≤ maxWord64) :
    readBounded vars name default least greatest = .ok n ↔
      NumberOf vars name default least greatest n := by
  unfold readBounded NumberOf
  cases vars.lookup name with
  | none => simp [eq_comm]
  | some given =>
    simp only [reduceCtorEq, false_and, Option.some.injEq, exists_eq_left', false_or]
    cases hr : readNat maxWord64 (trim given.toList) with
    | error fault =>
      simp only [reduceCtorEq, false_iff]
      rintro ⟨hnumeral, -, hle⟩
      rw [readNat_eq_ok_iff.mpr ⟨hnumeral, Nat.le_trans hle bounded⟩] at hr
      cases hr
    | ok m =>
      obtain ⟨hnumeral, -⟩ := readNat_eq_ok_iff.mp hr
      constructor
      · intro h
        cases hc : checkRange name least greatest m with
        | error fault =>
          simp only [hc] at h
          cases h
        | ok v =>
          simp only [hc, Except.map, Except.ok.injEq] at h
          obtain ⟨rfl, hleast, hgreatest⟩ := checkRange_eq_ok_iff.mp hc
          rw [Int.toNat_natCast] at h
          subst h
          exact ⟨hnumeral, by omega, by omega⟩
      · rintro ⟨hnumeral', hleast, hgreatest⟩
        have hr' := readNat_eq_ok_iff.mpr ⟨hnumeral', Nat.le_trans hgreatest bounded⟩
        rw [hr, Except.ok.injEq] at hr'
        subst hr'
        have hc : checkRange name least greatest m = .ok (m : Int) :=
          checkRange_eq_ok_iff.mpr ⟨rfl, by omega, by omega⟩
        simp [hc, Except.map]

theorem readPageSize_eq_ok_iff {v : Int} :
    readPageSize vars = .ok v ↔ ∃ n : Nat, v = n ∧ NumberOf vars "PAGE_SIZE" 60 1 60 n := by
  have hwide : (60 : Nat) ≤ maxInt32 := by decide
  unfold readPageSize NumberOf
  cases vars.lookup "PAGE_SIZE" with
  | none => simp [maxPageSize, eq_comm]
  | some given =>
    simp only [reduceCtorEq, false_and, Option.some.injEq, exists_eq_left', false_or]
    constructor
    · intro h
      cases hr : readInt maxInt32 (trim given.toList) with
      | error fault =>
        rw [hr] at h
        cases h
      | ok m =>
        rw [hr] at h
        obtain ⟨rfl, hleast, hgreatest⟩ := checkRange_eq_ok_iff.mp h
        obtain ⟨n, rfl, hnumeral, -⟩ := (readInt_eq_ok_iff_of_pos (by omega)).mp hr
        have hn : (n : Int) ≤ 60 := hgreatest
        exact ⟨n, rfl, hnumeral, by omega, by omega⟩
    · rintro ⟨n, rfl, hnumeral, hleast, hgreatest⟩
      have hr : readInt maxInt32 (trim given.toList) = .ok (n : Int) :=
        (readInt_eq_ok_iff_of_pos (by omega)).mpr ⟨n, rfl, hnumeral, Nat.le_trans hgreatest hwide⟩
      have hn : (n : Int) ≤ maxPageSize := by
        have h60 : maxPageSize = 60 := rfl
        omega
      simp only [hr]
      exact checkRange_eq_ok_iff.mpr ⟨rfl, by omega, hn⟩

/-! ### Conditions -/

inductive Condition where
  | pool
  | backoff
  | pageSize
  | providerTimeout
  | clockSkew
  | drainPeriod
  deriving Repr, DecidableEq

def Condition.inOrder : List Condition :=
  [.pool, .backoff, .pageSize, .providerTimeout, .clockSkew, .drainPeriod]

def Condition.variable : Condition → String
  | .pool => "USER_POOL_ID"
  | .backoff => "BACKOFF_SCHEDULE_MS"
  | .pageSize => "PAGE_SIZE"
  | .providerTimeout => "PROVIDER_TIMEOUT_SECONDS"
  | .clockSkew => "JWT_CLOCK_SKEW_SECONDS"
  | .drainPeriod => "DRAIN_SECONDS"

def Condition.Holds (vars : Variables) : Condition → Prop
  | .pool => ∃ given, vars.lookup "USER_POOL_ID" = some given ∧ ∃ c ∈ given.toList, isBlank c = false
  | .backoff =>
    ∀ given, vars.lookup "BACKOFF_SCHEDULE_MS" = some given → ∃ delays, WrittenSchedule given delays
  | .pageSize => InRange vars "PAGE_SIZE" 1 60
  | .providerTimeout => InRange vars "PROVIDER_TIMEOUT_SECONDS" 1 120
  | .clockSkew => InRange vars "JWT_CLOCK_SKEW_SECONDS" 1 600
  | .drainPeriod => InRange vars "DRAIN_SECONDS" 0 3600

/-- The condition that is not met when a fault is reported. -/
def Fault.condition : Fault → Condition
  | .missing _ => .pool
  | .backoff _ => .backoff
  | .pageSize _ => .pageSize
  | .providerTimeout _ => .providerTimeout
  | .clockSkew _ => .clockSkew
  | .drainPeriod _ => .drainPeriod

/-- A reader that succeeds exactly if a condition is met, and reports that it is not. -/
structure Settles {α : Type} (vars : Variables) (c : Condition) (r : Except Fault α) : Prop where
  ok_iff : (∃ a, r = .ok a) ↔ c.Holds vars
  fault : ∀ f, r = .error f → f.condition = c

theorem Settles.holds {α : Type} {c : Condition} {r : Except Fault α} (h : Settles vars c r) {a : α}
    (ok : r = .ok a) : c.Holds vars :=
  h.ok_iff.mp ⟨a, ok⟩

theorem Settles.violated {α : Type} {c : Condition} {r : Except Fault α} (h : Settles vars c r)
    {f : Fault} (error : r = .error f) : f.condition = c ∧ ¬ c.Holds vars := by
  refine ⟨h.fault f error, ?_⟩
  intro holds
  obtain ⟨a, ok⟩ := h.ok_iff.mpr holds
  rw [error] at ok
  cases ok

theorem mapError_eq_ok_iff {ε ε' α : Type} {f : ε → ε'} {r : Except ε α} {a : α} :
    r.mapError f = .ok a ↔ r = .ok a := by
  cases r <;> simp [Except.mapError]

theorem settles_mapError {ε α : Type} {c : Condition} {fault : ε → Fault} {r : Except ε α}
    (ok_iff : (∃ a, r = .ok a) ↔ c.Holds vars) (named : ∀ e, (fault e).condition = c) :
    Settles vars c (r.mapError fault) := by
  refine ⟨?_, ?_⟩
  · simp only [mapError_eq_ok_iff]
    exact ok_iff
  · intro f hf
    cases r with
    | ok a => cases hf
    | error e =>
      cases hf
      exact named e

theorem readPool_settles : Settles vars .pool (readPool vars) := by
  unfold readPool
  cases hgiven : vars.lookup "USER_POOL_ID" with
  | none => exact ⟨by simp [Condition.Holds, hgiven], fun f hf => by cases hf; rfl⟩
  | some given =>
    refine ⟨?_, ?_⟩
    · simp only [Condition.Holds, hgiven, Option.some.injEq, exists_eq_left', ← not_blank_iff]
      cases blank given <;> simp
    · intro f hf
      dsimp only at hf
      split at hf
      · cases hf
        rfl
      · cases hf

theorem readSchedule_settles : Settles vars .backoff (readSchedule vars) := by
  unfold readSchedule
  cases hgiven : vars.lookup "BACKOFF_SCHEDULE_MS" with
  | none => exact ⟨by simp [Condition.Holds, hgiven], fun f hf => by cases hf⟩
  | some given =>
    refine settles_mapError ?_ fun _ => rfl
    simp only [readBackoff_eq_ok_iff, Condition.Holds, hgiven, Option.some.injEq, forall_eq']

theorem readPageSize_settles : Settles vars .pageSize ((readPageSize vars).mapError .pageSize) := by
  refine settles_mapError ?_ fun _ => rfl
  rw [Condition.Holds, ← exists_numberOf_iff 60]
  simp only [readPageSize_eq_ok_iff]
  exact ⟨fun ⟨_, n, _, h⟩ => ⟨n, h⟩, fun ⟨n, h⟩ => ⟨n, n, rfl, h⟩⟩

theorem readBounded_settles {name : String} {default least greatest : Nat} {c : Condition}
    {fault : RangeFault → Fault} (bounded : greatest ≤ maxWord64)
    (asks : c.Holds vars ↔ InRange vars name least greatest) (named : ∀ e, (fault e).condition = c) :
    Settles vars c ((readBounded vars name default least greatest).mapError fault) := by
  refine settles_mapError ?_ named
  rw [asks, ← exists_numberOf_iff default]
  simp only [readBounded_eq_ok_iff bounded]

/-! ### Readers one after the other -/

theorem bind_eq_ok {ε α β : Type} {r : Except ε α} {k : α → Except ε β} {b : β}
    (h : (r >>= k) = .ok b) : ∃ a, r = .ok a ∧ k a = .ok b := by
  cases r with
  | error e => cases h
  | ok a => exact ⟨a, rfl, h⟩

/-- Conditions are looked at in an order, and the first one that is not met is reported. -/
structure InTurn {α : Type} (vars : Variables) (cs : List Condition) (r : Except Fault α) : Prop where
  ok_iff : (∃ a, r = .ok a) ↔ ∀ c ∈ cs, c.Holds vars
  fault : ∀ f, r = .error f → ∃ before after, cs = before ++ f.condition :: after ∧
    (∀ c ∈ before, c.Holds vars) ∧ ¬ f.condition.Holds vars

theorem inTurn_ok {α : Type} (a : α) : InTurn vars [] (.ok a : Except Fault α) :=
  ⟨by simp, fun _ h => by cases h⟩

theorem Settles.bind {α β : Type} {c : Condition} {cs : List Condition} {r : Except Fault α}
    {k : α → Except Fault β} (h : Settles vars c r) (next : ∀ a, InTurn vars cs (k a)) :
    InTurn vars (c :: cs) (r >>= k) := by
  cases hr : r with
  | error e =>
    obtain ⟨named, violated⟩ := h.violated hr
    refine ⟨?_, ?_⟩
    · constructor
      · rintro ⟨b, hb⟩
        cases hb
      · intro holds
        exact absurd (holds c List.mem_cons_self) violated
    · intro f hf
      cases hf
      exact ⟨[], cs, by rw [named, List.nil_append], by simp, by rwa [named]⟩
  | ok a =>
    have holds := h.holds hr
    refine ⟨?_, ?_⟩
    · rw [List.forall_mem_cons]
      exact (next a).ok_iff.trans (and_iff_right holds).symm
    · intro f hf
      obtain ⟨before, after, rfl, met, violated⟩ := (next a).fault f hf
      exact ⟨c :: before, after, rfl, List.forall_mem_cons.mpr ⟨holds, met⟩, violated⟩

theorem ofVariables_inTurn (vars : Variables) : InTurn vars Condition.inOrder (ofVariables vars) := by
  refine readPool_settles.bind fun pool => readSchedule_settles.bind fun backoff =>
    readPageSize_settles.bind fun pageSize => ?_
  refine Settles.bind (readBounded_settles (by decide) Iff.rfl fun _ => rfl) fun timeout => ?_
  refine Settles.bind (readBounded_settles (by decide) Iff.rfl fun _ => rfl) fun skew => ?_
  refine Settles.bind (readBounded_settles (by decide) Iff.rfl fun _ => rfl) fun drain => ?_
  exact inTurn_ok _

/-! ### Settings -/

/-- What settings say of the variables that they were read from. -/
structure Reading (vars : Variables) (s : Settings) : Prop where
  pool : ∃ given, vars.lookup "USER_POOL_ID" = some given ∧ Core given.toList s.pool.toList ∧ s.pool ≠ ""
  backoff : (vars.lookup "BACKOFF_SCHEDULE_MS" = none ∧ s.backoff = [1000, 3000, 10000]) ∨
    ∃ given, vars.lookup "BACKOFF_SCHEDULE_MS" = some given ∧ WrittenSchedule given s.backoff
  total : s.backoff.sum < 60000
  pageSize : ∃ n : Nat, s.pageSize = n ∧ NumberOf vars "PAGE_SIZE" 60 1 60 n
  providerTimeout : NumberOf vars "PROVIDER_TIMEOUT_SECONDS" 10 1 120 s.providerTimeout
  clockSkew : NumberOf vars "JWT_CLOCK_SKEW_SECONDS" 60 1 600 s.clockSkew
  drainPeriod : NumberOf vars "DRAIN_SECONDS" 30 0 3600 s.drainPeriod
  addresses : vars.lookup "JWKS_URL" = none → vars.lookup "TOKEN_ISSUER" = none →
    s.keySetUrl = s.issuer ++ "/.well-known/jwks.json"

/-- Where keys are published is written beside, and not with, the name of who publishes them. -/
theorem discoveryUrl_eq (region pool : String) :
    discoveryUrl region pool = poolIssuer region pool ++ "/.well-known/jwks.json" := by
  unfold discoveryUrl poolIssuer
  rfl

theorem readPool_ok {pool : String} (h : readPool vars = .ok pool) :
    ∃ given, vars.lookup "USER_POOL_ID" = some given ∧ Core given.toList pool.toList ∧ pool ≠ "" := by
  unfold readPool at h
  split at h
  · next given hgiven =>
    split at h
    · cases h
    · next visible =>
      cases h
      refine ⟨given, hgiven, ?_, ?_⟩
      · rw [trimmed, String.toList_ofList]
        exact core_trim _
      · intro hempty
        rw [blank, List.isEmpty_iff] at visible
        rw [trimmed, ← String.toList_inj, String.toList_ofList] at hempty
        exact visible hempty
  · cases h

theorem readSchedule_ok {delays : Listing.Backoff} (h : readSchedule vars = .ok delays) :
    ((vars.lookup "BACKOFF_SCHEDULE_MS" = none ∧ delays = [1000, 3000, 10000]) ∨
      ∃ given, vars.lookup "BACKOFF_SCHEDULE_MS" = some given ∧ WrittenSchedule given delays) ∧
    delays.sum < 60000 := by
  unfold readSchedule at h
  split at h
  · next given hgiven =>
    have hwritten := readBackoff_eq_ok_iff.mp (mapError_eq_ok_iff.mp h)
    refine ⟨Or.inr ⟨given, hgiven, hwritten⟩, ?_⟩
    rcases hwritten with ⟨-, rfl⟩ | ⟨-, -, hsum⟩
    · decide
    · exact hsum
  · next hnone =>
    cases h
    exact ⟨Or.inl ⟨hnone, rfl⟩, by decide⟩

theorem reading_of_ofVariables {s : Settings} (h : ofVariables vars = .ok s) : Reading vars s := by
  obtain ⟨pool, hpool, h⟩ := bind_eq_ok h
  obtain ⟨backoff, hbackoff, h⟩ := bind_eq_ok h
  obtain ⟨pageSize, hpageSize, h⟩ := bind_eq_ok h
  obtain ⟨timeout, htimeout, h⟩ := bind_eq_ok h
  obtain ⟨skew, hskew, h⟩ := bind_eq_ok h
  obtain ⟨drain, hdrain, h⟩ := bind_eq_ok h
  obtain ⟨hwritten, htotal⟩ := readSchedule_ok hbackoff
  obtain rfl := Except.ok.inj h
  refine ⟨readPool_ok hpool, hwritten, htotal, ?_, ?_, ?_, ?_, ?_⟩
  · exact readPageSize_eq_ok_iff.mp (mapError_eq_ok_iff.mp hpageSize)
  · exact (readBounded_eq_ok_iff (by decide)).mp (mapError_eq_ok_iff.mp htimeout)
  · exact (readBounded_eq_ok_iff (by decide)).mp (mapError_eq_ok_iff.mp hskew)
  · exact (readBounded_eq_ok_iff (by decide)).mp (mapError_eq_ok_iff.mp hdrain)
  · intro hurl hissuer
    rw [hurl, hissuer]
    exact discoveryUrl_eq _ _

/-! ### Variables that do not matter -/

def names : List String :=
  ["USER_POOL_ID", "POOL_REGION", "BIND_ADDRESS", "JWKS_URL", "TOKEN_ISSUER", "BACKOFF_SCHEDULE_MS",
    "PAGE_SIZE", "PROVIDER_TIMEOUT_SECONDS", "PROVIDER_ENDPOINT_URL", "JWT_CLOCK_SKEW_SECONDS",
    "ADMIN_GROUP", "DRAIN_SECONDS"]

/-- Both fail with the same fault, or neither fails. -/
def SameFault {α : Type} (r r' : Except Fault α) : Prop :=
  ∀ f, r = .error f ↔ r' = .error f

theorem sameFault_ok {α : Type} (a a' : α) : SameFault (.ok a) (.ok a') :=
  fun _ => ⟨fun h => (nomatch h), fun h => (nomatch h)⟩

theorem SameFault.bind {α β : Type} {r r' : Except Fault α} {k k' : α → Except Fault β} (h : r = r')
    (next : ∀ a, SameFault (k a) (k' a)) : SameFault (r >>= k) (r' >>= k') := by
  subst h
  cases r with
  | error e => exact fun _ => Iff.rfl
  | ok a => exact next a

/-- A fault comes of the variables that a condition is put on, and of no other. -/
theorem ofVariables_sameFault {others : Variables}
    (agree : ∀ c : Condition, others.lookup c.variable = vars.lookup c.variable) :
    SameFault (ofVariables others) (ofVariables vars) := by
  have hpool : readPool others = readPool vars := by
    have h : others.lookup "USER_POOL_ID" = vars.lookup "USER_POOL_ID" := agree .pool
    rw [readPool, readPool, h]
  have hbackoff : readSchedule others = readSchedule vars := by
    have h : others.lookup "BACKOFF_SCHEDULE_MS" = vars.lookup "BACKOFF_SCHEDULE_MS" := agree .backoff
    rw [readSchedule, readSchedule, h]
  have hpageSize : readPageSize others = readPageSize vars := by
    have h : others.lookup "PAGE_SIZE" = vars.lookup "PAGE_SIZE" := agree .pageSize
    rw [readPageSize, readPageSize, h]
  have hbounded : ∀ (c : Condition) (default least greatest : Nat),
      readBounded others c.variable default least greatest =
        readBounded vars c.variable default least greatest := by
    intro c default least greatest
    rw [readBounded, readBounded, agree c]
  refine SameFault.bind hpool fun pool => SameFault.bind hbackoff fun backoff =>
    SameFault.bind (by rw [hpageSize]) fun pageSize => ?_
  refine SameFault.bind (congrArg _ (hbounded .providerTimeout _ _ _)) fun timeout => ?_
  refine SameFault.bind (congrArg _ (hbounded .clockSkew _ _ _)) fun skew => ?_
  refine SameFault.bind (congrArg _ (hbounded .drainPeriod _ _ _)) fun drain => ?_
  exact sameFault_ok _ _

theorem ofVariables_congr {others : Variables}
    (agree : ∀ name ∈ names, others.lookup name = vars.lookup name) :
    ofVariables others = ofVariables vars := by
  simp only [names, List.forall_mem_cons, List.not_mem_nil, false_implies, implies_true, and_true] at agree
  obtain ⟨hpool, hregion, hbind, hurl, hissuer, hbackoff, hpageSize, htimeout, hendpoint, hskew, hadmin,
    hdrain⟩ := agree
  simp only [ofVariables, readPool, readSchedule, readPageSize, readBounded, hpool, hregion, hbind, hurl,
    hissuer, hbackoff, hpageSize, htimeout, hendpoint, hskew, hadmin, hdrain]

/-- Settings are read exactly if every variable that a condition is put on meets it, and then they are what these variables
say; if not, the fault is that of the first condition that is not met. A number is taken for what its digits stand for, however
many there are, and never with a minus sign. Variables without a condition cause no fault, and unknown ones change nothing. -/
theorem variables_are_accepted_exactly (vars : Variables) :
    ((∃ s, ofVariables vars = .ok s) ↔ ∀ c : Condition, c.Holds vars) ∧
    (∀ s, ofVariables vars = .ok s → Reading vars s) ∧
    (∀ f, ofVariables vars = .error f →
      ∃ before after, Condition.inOrder = before ++ f.condition :: after ∧
        (∀ c ∈ before, c.Holds vars) ∧ ¬ f.condition.Holds vars) ∧
    (∀ c ∈ [Condition.pageSize, .providerTimeout, .clockSkew, .drainPeriod],
      ∀ given, vars.lookup c.variable = some given → '-' ∈ given.toList →
        ∀ s, ofVariables vars ≠ .ok s) ∧
    (∀ others : Variables, (∀ c : Condition, others.lookup c.variable = vars.lookup c.variable) →
      ∀ f, ofVariables others = .error f ↔ ofVariables vars = .error f) ∧
    ∀ others : Variables, (∀ name ∈ names, others.lookup name = vars.lookup name) →
      ofVariables others = ofVariables vars := by
  have hturn := ofVariables_inTurn vars
  have hall : (∀ c ∈ Condition.inOrder, c.Holds vars) ↔ ∀ c : Condition, c.Holds vars := by
    constructor
    · intro h c
      exact h c (by cases c <;> decide)
    · intro h c _
      exact h c
  refine ⟨hturn.ok_iff.trans hall, fun s => reading_of_ofVariables, hturn.fault, ?_,
    fun others => ofVariables_sameFault, fun others => ofVariables_congr⟩
  intro c hc given hgiven hminus s hs
  have hholds : c.Holds vars := hall.mp (hturn.ok_iff.mp ⟨s, hs⟩) c
  have hrange : ∃ least greatest, InRange vars c.variable least greatest := by
    simp only [List.mem_cons, List.not_mem_nil, or_false] at hc
    rcases hc with rfl | rfl | rfl | rfl <;> exact ⟨_, _, hholds⟩
  obtain ⟨least, greatest, hrange⟩ := hrange
  obtain ⟨n, hnumeral, -⟩ := hrange given hgiven
  exact hnumeral.minus_not_mem ((core_trim given.toList).mem hminus (by decide))

def wellWritten : Variables :=
  [("USER_POOL_ID", " eu_1 "), ("PAGE_SIZE", " +0000000000000000000000007 "), ("DRAIN_SECONDS", "3600"),
    ("BACKOFF_SCHEDULE_MS", "59999,0"), ("EDITOR", "ed")]

def twiceAtFault : Variables :=
  [("USER_POOL_ID", "eu_1"), ("PAGE_SIZE", "-7"), ("BACKOFF_SCHEDULE_MS", "30000,30000")]

/-- Zeros do not make a number too long, and a schedule may fall short of a minute by a millisecond but not fill it. -/
theorem one_accepted_and_one_refused :
    ((∀ c : Condition, c.Holds wellWritten) ∧
      (∃ s, ofVariables wellWritten = .ok s ∧ Reading wellWritten s ∧
        s.pool = "eu_1" ∧ s.backoff = [59999, 0] ∧ s.pageSize = 7) ∧
      ofVariables (wellWritten.take 4) = ofVariables wellWritten) ∧
    (∃ f, ofVariables twiceAtFault = .error f ∧ f.condition = .backoff) ∧
      Condition.pool.Holds twiceAtFault ∧ ¬ Condition.backoff.Holds twiceAtFault := by
  obtain ⟨hiff, hreading, -, -, -, hcongr⟩ := variables_are_accepted_exactly wellWritten
  obtain ⟨-, -, hfault, -⟩ := variables_are_accepted_exactly twiceAtFault
  constructor
  · have hread : ∃ s, ofVariables wellWritten = .ok s ∧ s.pool = "eu_1" ∧ s.backoff = [59999, 0] ∧
        s.pageSize = 7 := ⟨_, rfl, by decide +kernel⟩
    obtain ⟨s, hs, hvalues⟩ := hread
    exact ⟨hiff.mp ⟨s, hs⟩, ⟨s, hs, hreading s hs, hvalues⟩, hcongr _ (by decide +kernel)⟩
  · have hrefused : ofVariables twiceAtFault = .error (.backoff (.totalTooLong 60000)) := by
      decide +kernel
    obtain ⟨before, after, horder, hbefore, hviolated⟩ := hfault _ hrefused
    have hpool : Condition.pool ∈ before := by
      cases before with
      | nil => cases horder
      | cons c before =>
        obtain ⟨rfl, -⟩ := List.cons.inj horder
        exact List.mem_cons_self
    exact ⟨⟨_, hrefused, rfl⟩, hbefore .pool hpool, hviolated⟩

end DirectoryGateway.Settings
