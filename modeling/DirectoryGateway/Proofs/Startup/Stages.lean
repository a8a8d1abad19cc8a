import DirectoryGateway.Proofs.Gateway.Unlisted
import DirectoryGateway.Proofs.KeySet.Loading
import DirectoryGateway.Proofs.Token.Soundness
import DirectoryGateway.Startup.Program

/-!
# What it takes to serve

A start goes through its stages in one order. The gateway serves exactly if it gets through all of them, and ends with the fault
of the first one that it does not get through. The keys that it serves with are as many as were published.
-/

namespace DirectoryGateway.KeySet

open DirectoryGateway.Remote (Answer)
open DirectoryGateway.Text (Address)

variable {elsewhere : Elsewhere} {left time : Nat} {address : Address} {replies : List Reply}

/-! ### Fetching -/

/-- Asking at an address leads to an answer that sends nowhere else: in time, and over no more redirections than may be
followed. -/
inductive Leads (elsewhere : Elsewhere) :
    (left time : Nat) → Address → List Reply → Answer → Prop where
  | last {left time : Nat} {address : Address} {reply : Reply} {a : Answer} (replies : List Reply)
      (come : reply.within time = some a) (final : destination? address a = none) :
    Leads elsewhere left time address (reply :: replies) a
  | redirected {left time : Nat} {address : Address} {there : Text.Location} {reply : Reply} {replies : List Reply}
      {a b : Answer} (come : reply.within time = some a) (sends : destination? address a = some (.here there))
      (later : Leads elsewhere left (time - reply.delay) { address with location := there } replies b) :
    Leads elsewhere (left + 1) time address (reply :: replies) b
  | handedOver {left time : Nat} {address : Address} {reply : Reply} (replies : List Reply) {a b : Answer}
      (come : reply.within time = some a) (sends : destination? address a = some .elsewhere)
      (told : elsewhere left (time - reply.delay) = some b) :
    Leads elsewhere (left + 1) time address (reply :: replies) b

theorem destination_ne_nowhere (address : Address) (a : Answer) :
    destination? address a ≠ some .nowhere := by
  unfold destination?
  split
  · simp
  · next place other =>
    intro h
    exact other h

theorem Leads.result {a : Answer} (h : Leads elsewhere left time address replies a) :
    (fetchFrom elsewhere left time address replies).result = readAnswer a := by
  induction h with
  | last replies come final => simp [fetchFrom, come, final]
  | redirected come sends later ih => simp [fetchFrom, come, sends, ih]
  | handedOver replies come sends told => simp [fetchFrom, come, sends, Elsewhere.ask, told]

theorem result_of_unled (h : ∀ a, ¬ Leads elsewhere left time address replies a) :
    (fetchFrom elsewhere left time address replies).result = .error .transport := by
  induction replies generalizing left time address with
  | nil => rw [fetchFrom]
  | cons reply replies ih =>
    rw [fetchFrom]
    cases come : reply.within time with
    | none => rfl
    | some a =>
      cases sends : destination? address a with
      | none => exact absurd (.last replies come sends) (h a)
      | some place =>
        cases left with
        | zero => cases place <;> simp [sends]
        | succ left =>
          cases place with
          | here there =>
            have later := ih fun b hb => h b (.redirected come sends hb)
            simpa [sends] using later
          | elsewhere =>
            cases told : elsewhere left (time - reply.delay) with
            | some b => exact absurd (.handedOver replies come sends told) (h b)
            | none => simp [sends, Elsewhere.ask, told]
          | nowhere => exact absurd sends (destination_ne_nowhere address a)

end DirectoryGateway.KeySet

namespace DirectoryGateway.Token

theorem length_loadKeys {keys : KeySet.KeyMap} {loaded : List (String × LoadedKey)}
    (h : Verifier.loadKeys keys = .ok loaded) : loaded.length = keys.length := by
  induction keys generalizing loaded with
  | nil =>
    cases h
    rfl
  | cons entry keys ih =>
    obtain ⟨keyId, text⟩ := entry
    rw [Verifier.loadKeys] at h
    split at h
    · cases h
    · split at h
      · cases h
      · next rest hrest =>
        cases h
        rw [List.length_cons, List.length_cons, ih hrest]

end DirectoryGateway.Token

namespace DirectoryGateway.Startup

open DirectoryGateway.Gateway
open DirectoryGateway.KeySet (FetchFault JwkSet KeyMap Leads)
open DirectoryGateway.Remote (Answer Line)
open DirectoryGateway.Text (Address)
open DirectoryGateway.Token (Verifier)

variable {w : World} {settings : Settings} {set : JwkSet} {keys : KeyMap} {verifier : Verifier}
  {address : SocketAddress}

/-! ### The endpoint -/

/-- The last answer to the question for the key set at the address that is set for it, over ten redirections at most and
within the time that a call to the provider may take. -/
def Answered (w : World) (settings : Settings) (a : Answer) : Prop :=
  ∃ address, Address.read? settings.keySetUrl = some address ∧
    Leads w.elsewhere 10 (1000 * settings.providerTimeout) address (w.replies address.server) a

/-- The endpoint answers with a success whose body is a key set. -/
def Delivers (w : World) (settings : Settings) (set : JwkSet) : Prop :=
  ∃ a, Answered w settings a ∧ (200 ≤ a.status ∧ a.status < 300) ∧ JwkSet.read? a.body = some set

/-- Why the endpoint delivers no key set. -/
inductive FetchFails (w : World) (settings : Settings) : FetchFault → Prop where
  | transport (unanswered : ∀ a, ¬ Answered w settings a) : FetchFails w settings .transport
  | status (a : Answer) (answered : Answered w settings a) (failed : ¬ (200 ≤ a.status ∧ a.status < 300)) :
    FetchFails w settings (.status a.status)
  | parse (a : Answer) (answered : Answered w settings a) (success : 200 ≤ a.status ∧ a.status < 300)
      (unread : JwkSet.read? a.body = none) :
    FetchFails w settings .parse

theorem Answered.result {a : Answer} (h : Answered w settings a) :
    (fetchKeys w settings).result = KeySet.readAnswer a := by
  obtain ⟨address, haddress, leads⟩ := h
  rw [fetchKeys, KeySet.fetch, haddress]
  exact leads.result

theorem result_of_unanswered (h : ∀ a, ¬ Answered w settings a) :
    (fetchKeys w settings).result = .error .transport := by
  rw [fetchKeys, KeySet.fetch]
  cases haddress : Address.read? settings.keySetUrl with
  | none => rfl
  | some address => exact KeySet.result_of_unled fun a leads => h a ⟨address, haddress, leads⟩

theorem readAnswer_success {a : Answer} (h : 200 ≤ a.status ∧ a.status < 300) :
    KeySet.readAnswer a =
      match JwkSet.read? a.body with
      | some set => .ok set
      | none => .error .parse := by
  have hsuccess : a.isSuccess = true := by simpa [Answer.isSuccess] using h
  exact if_pos hsuccess

theorem readAnswer_failed {a : Answer} (h : ¬ (200 ≤ a.status ∧ a.status < 300)) :
    KeySet.readAnswer a = .error (.status a.status) := by
  have hfailed : ¬ a.isSuccess = true := by simpa [Answer.isSuccess] using h
  exact if_neg hfailed

theorem Delivers.result (h : Delivers w settings set) : (fetchKeys w settings).result = .ok set := by
  obtain ⟨a, answered, success, hread⟩ := h
  rw [answered.result, readAnswer_success success, hread]

theorem FetchFails.result {fault : FetchFault} (h : FetchFails w settings fault) :
    (fetchKeys w settings).result = .error fault := by
  cases h with
  | transport unanswered => exact result_of_unanswered unanswered
  | status a answered failed => rw [answered.result, readAnswer_failed failed]
  | parse a answered success unread => rw [answered.result, readAnswer_success success, unread]

/-- The start has settings and a ledger. -/
structure Configured (w : World) (settings : Settings) : Prop where
  accepted : Settings.ofVariables w.vars = .ok settings
  fresh : w.ledger = none

/-- The start has resolved the keys that the endpoint delivers. -/
structure Keyed (w : World) (settings : Settings) (set : JwkSet) (keys : KeyMap) : Prop
    extends Configured w settings where
  delivered : Delivers w settings set
  resolved : set.resolve = .ok keys

/-- The start has a verifier with at least one key. -/
structure Armed (w : World) (settings : Settings) (set : JwkSet) (keys : KeyMap) (verifier : Verifier) : Prop
    extends Keyed w settings set keys where
  nonempty : keys ≠ []
  loaded : Verifier.ofKeyMap keys settings.issuer settings.clockSkew = .ok verifier

/-- The start is through all of its stages. -/
structure Ready (w : World) (settings : Settings) (set : JwkSet) (keys : KeyMap) (verifier : Verifier)
    (address : SocketAddress) : Prop extends Armed w settings set keys verifier where
  addressed : SocketAddress.read? settings.bindAddress = some address
  bound : w.listen address = .ok ()

/-- The fault of the first stage that the start does not get through. -/
inductive FirstFault (w : World) : Fault → Prop where
  | settings (fault : Settings.Fault) (refused : Settings.ofVariables w.vars = .error fault) :
    FirstFault w (.settings fault)
  | ledger (settings : Settings) (accepted : Settings.ofVariables w.vars = .ok settings)
      (installed : w.ledger ≠ none) :
    FirstFault w (.ledger .alreadyInstalled)
  | fetch (settings : Settings) (reached : Configured w settings) (fault : FetchFault)
      (failed : FetchFails w settings fault) :
    FirstFault w (.keySet (.fetch fault))
  | resolve (settings : Settings) (reached : Configured w settings) (set : JwkSet)
      (delivered : Delivers w settings set) (fault : KeySet.ResolveFault) (refused : set.resolve = .error fault) :
    FirstFault w (.keySet (.resolve fault))
  | verifier (settings : Settings) (set : JwkSet) (keys : KeyMap) (reached : Keyed w settings set keys)
      (fault : Token.LoadFault)
      (refused : Verifier.ofKeyMap keys settings.issuer settings.clockSkew = .error fault) :
    FirstFault w (.verifier fault)
  | address (settings : Settings) (set : JwkSet) (keys : KeyMap) (verifier : Verifier)
      (reached : Armed w settings set keys verifier)
      (unread : SocketAddress.read? settings.bindAddress = none) :
    FirstFault w .address
  | listen (settings : Settings) (set : JwkSet) (keys : KeyMap) (verifier : Verifier) (address : SocketAddress)
      (reached : Armed w settings set keys verifier)
      (addressed : SocketAddress.read? settings.bindAddress = some address) (reason : String)
      (unbound : w.listen address = .error reason) :
    FirstFault w (.listen reason)

theorem Configured.start (h : Configured w settings) :
    (Startup.start w).result = finish w settings .empty (fetchKeys w settings) := by
  rw [Startup.start, h.accepted, h.fresh]
  rfl

theorem resolve_of_result {f : KeySet.Fetch} (h : f.result = .ok set) :
    f.resolve = set.resolve.mapError .resolve := by
  rw [KeySet.Fetch.resolve, h]

theorem Keyed.start (h : Keyed w settings set keys) :
    (Startup.start w).result = (do
      let verifier ←
        (Verifier.ofKeyMap keys settings.issuer settings.clockSkew).mapError .verifier
      match SocketAddress.read? settings.bindAddress with
      | none => .error .address
      | some address =>
        (w.listen address).mapError .listen
        return ⟨⟨settings, verifier, w.epoch⟩, address,
          Telemetry.Ledger.empty.note (.keySetFetch "success")⟩) := by
  have hnote : (fetchKeys w settings).note = .keySetFetch "success" := by
    rw [KeySet.Fetch.note, h.delivered.result]
  rw [h.toConfigured.start, finish, resolve_of_result h.delivered.result, h.resolved, hnote]
  rfl

theorem Ready.start (h : Ready w settings set keys verifier address) :
    (Startup.start w).result = .ok ⟨⟨settings, verifier, w.epoch⟩, address,
      Telemetry.Ledger.empty.note (.keySetFetch "success")⟩ := by
  rw [h.toKeyed.start, h.loaded, h.addressed]
  simp only [h.bound, Except.mapError, bind, Except.bind, pure, Except.pure]

theorem FirstFault.start {fault : Fault} (h : FirstFault w fault) : (Startup.start w).result = .error fault := by
  cases h with
  | settings fault refused => rw [Startup.start, refused]
  | ledger settings accepted installed =>
    rw [Startup.start, accepted]
    cases hledger : w.ledger with
    | none => exact absurd hledger installed
    | some ledger => rfl
  | fetch settings reached fault failed =>
    rw [reached.start, finish, KeySet.Fetch.resolve, failed.result]
    rfl
  | resolve settings reached set delivered fault refused =>
    rw [reached.start, finish, resolve_of_result delivered.result, refused]
    rfl
  | verifier settings set keys reached fault refused =>
    rw [reached.start, refused]
    rfl
  | address settings set keys verifier reached unread =>
    rw [reached.toKeyed.start, reached.loaded, unread]
    rfl
  | listen settings set keys verifier address reached addressed reason unbound =>
    rw [reached.toKeyed.start, reached.loaded, addressed]
    simp only [unbound, Except.mapError, bind, Except.bind]

/-- A verifier holds a key for each one that was published. -/
theorem Armed.keyCount (h : Armed w settings set keys verifier) :
    verifier.keyCount = set.keys.length ∧ 1 ≤ set.keys.length := by
  have hresolved : set.keys.length = keys.length := (KeySet.JwkSet.resolve_ok h.resolved).2.length_eq
  have hloaded := Token.length_loadKeys (Token.ofKeyMap_eq_ok h.loaded).1
  have hpos := List.length_pos_of_ne_nil h.nonempty
  rw [Verifier.keyCount]
  omega

/-- What the gateway tells a readiness probe. -/
def readiness (draining : Bool) (keyCount : Nat) : Response :=
  .ofJson (if draining then 503 else 200)
    (.obj [("status", .str (if draining then "draining" else "ready")), ("verification_keys", .nat keyCount)])

end DirectoryGateway.Startup
