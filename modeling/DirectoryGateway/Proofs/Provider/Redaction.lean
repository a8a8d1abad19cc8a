import DirectoryGateway.Provider.Script

/-!
# Providers that differ in vendor detail

Redaction takes from a failure what the vendor said, its code and its message, and leaves the kind and the operation. Two
providers are alike if their calls come to replies that redaction makes equal, whatever they are asked for.
-/

namespace DirectoryGateway.Provider

open DirectoryGateway.Directory

variable {σ τ α : Type}

/-! ### Replies -/

def Failure.redacted (f : Failure) : Failure :=
  { f with code := none, message := "" }

def redact : Outcome α → Outcome α
  | .ok a => .ok a
  | .error f => .error f.redacted

@[simp] theorem retryable_redacted (f : Failure) : f.redacted.retryable = f.retryable := rfl

@[simp] theorem kind_redacted (f : Failure) : f.redacted.kind = f.kind := rfl

def Reply.redacted (r : Reply α) : Reply α :=
  { r with outcome := redact r.outcome }

/-! ### Providers -/

/-- Two calls come to replies that differ in vendor detail at most, and leave states that are related. -/
def CallsAlike (R : σ → τ → Prop) (x : Reply α × σ) (y : Reply α × τ) : Prop :=
  x.1.redacted = y.1.redacted ∧ R x.2 y.2

def PagesAlike (R : σ → τ → Prop) (f : PageCall σ α) (f' : PageCall τ α) : Prop :=
  ∀ q s t, R s t → CallsAlike R (f q s) (f' q t)

structure Service.Alike (R : σ → τ → Prop) (a : Service σ) (b : Service τ) : Prop where
  groups : PagesAlike R a.groups b.groups
  users : PagesAlike R a.users b.users
  members : PagesAlike R a.members b.members
  user : ∀ pool username s t, R s t → CallsAlike R (a.user pool username s) (b.user pool username t)
  addMember : ∀ pool username group s t, R s t →
    CallsAlike R (a.addMember pool username group s) (b.addMember pool username group t)
  removeMember : ∀ pool username group s t, R s t →
    CallsAlike R (a.removeMember pool username group s) (b.removeMember pool username group t)
  pagesLeft : ∀ s t, R s t → a.pagesLeft s = b.pagesLeft t

/-! ### Scripts -/

def Queued.redacted (q : Queued α) : Queued α :=
  { q with outcome := redact q.outcome }

def Script.redacted (s : Script) : Script :=
  { s with
    groups := s.groups.map Queued.redacted
    users := s.users.map Queued.redacted
    members := s.members.map Queued.redacted
    mutationFailure := s.mutationFailure.map Failure.redacted }

theorem headReply_redacted (queue : List (Queued α)) :
    headReply (queue.map Queued.redacted) = (headReply queue).redacted := by
  cases queue <;> rfl

theorem redacted_redacted (r : Reply α) : r.redacted.redacted = r.redacted := by
  obtain ⟨delay, outcome, notes, cancels⟩ := r
  cases outcome <;> rfl

namespace Script

/-- Scripts that differ in vendor detail at most. -/
def Agrees (s t : Script) : Prop :=
  s.redacted = t.redacted

/-- A call does to a redacted script what it does to the script, up to redaction. -/
def Respects (call : Script → Reply α × Script) : Prop :=
  ∀ s, (call s.redacted).1.redacted = (call s).1.redacted ∧ (call s.redacted).2 = (call s).2.redacted

theorem Respects.alike {call : Script → Reply α × Script} (h : Respects call) {s t : Script}
    (agrees : s.Agrees t) : CallsAlike Agrees (call s) (call t) := by
  obtain ⟨hreply, hafter⟩ := h s
  obtain ⟨hreply', hafter'⟩ := h t
  rw [agrees] at hreply hafter
  exact ⟨hreply.symm.trans hreply', hafter.symm.trans hafter'⟩

theorem respects_pages (q : ListingRequest) :
    Respects (nextGroups q) ∧ Respects (nextUsers q) ∧ Respects (nextMembers q) := by
  refine ⟨?_, ?_, ?_⟩ <;> intro s <;>
    simp only [nextGroups, nextUsers, nextMembers, seen, redacted, List.map_tail, headReply_redacted,
      redacted_redacted, and_self]

theorem respects_lookUp (username : String) : Respects (lookUp username) :=
  fun _ => ⟨rfl, rfl⟩

theorem respects_change (operation : Operation)
    (edit : List (String × String) → List (String × String)) :
    Respects fun s => s.change operation edit := by
  intro s
  cases hfailure : s.mutationFailure with
  | none => simp only [change, redacted, hfailure, Option.map_none, and_self]
  | some f => simp [change, redacted, hfailure, Reply.redacted, redact, Failure.redacted]

theorem pagesLeft_redacted (s : Script) : service.pagesLeft s.redacted = service.pagesLeft s := by
  simp [service, redacted]

theorem service_alike : Service.Alike Agrees service service where
  groups q _ _ h := (respects_pages q).1.alike h
  users q _ _ h := (respects_pages q).2.1.alike h
  members q _ _ h := (respects_pages q).2.2.alike h
  user _ username _ _ h := (respects_lookUp username).alike h
  addMember _ username group _ _ h := (respects_change .addMember (withMember username group)).alike h
  removeMember _ username group _ _ h :=
    (respects_change .removeMember (withoutMember username group)).alike h
  pagesLeft s t h := by
    have hredacted : s.redacted = t.redacted := h
    rw [← pagesLeft_redacted s, hredacted, pagesLeft_redacted t]

end Script

end DirectoryGateway.Provider
