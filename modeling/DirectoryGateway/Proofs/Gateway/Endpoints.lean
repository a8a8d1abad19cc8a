import DirectoryGateway.Proofs.Gateway.Routing

/-!
# Endpoints of paths

A path is counted under an endpoint that depends on its segments, but not on those in the place of a name. On the paths that lead to a
route it is the endpoint of the route, whose label is the path of the route with the places of names in braces.
-/

namespace DirectoryGateway.Gateway

open DirectoryGateway.Telemetry

/-! ### Labels -/

def endpointLabels : List String :=
  ["/", "/health", "/ready", "/metrics", "/api/v1/me", "/api/v1/groups", "/api/v1/users", "/api/v1/users/\x7busername\x7d",
    "/api/v1/groups/\x7bgroup\x7d/users", "/api/v1/groups/\x7bgroup\x7d/users/\x7busername\x7d", "/other"]

theorem label_mem (e : Endpoint) : e.label ∈ endpointLabels := by
  cases e <;> decide

/-! ### Segments -/

namespace Route

theorem segments_ne_nil (path : String) : segments path ≠ [] := by
  rw [segments, Text.splitAt_eq_splitOn]
  simp

theorem segments_injective {path path' : String} (h : segments path = segments path') : path = path' := by
  have hpath := (segments_eq_iff (segments_ne_nil path')).mp h
  have hpath' := (segments_eq_iff (segments_ne_nil path')).mp rfl
  rw [hpath.1, ← hpath'.1]

/-- Segments without the empty ones in front, but for the last one. -/
def dropEmpty : List String → List String
  | [] => []
  | [part] => [part]
  | part :: next :: rest => if part = "" then dropEmpty (next :: rest) else part :: next :: rest

theorem dropEmpty_of_ne {part : String} (h : part ≠ "") (rest : List String) :
    dropEmpty (part :: rest) = part :: rest := by
  cases rest with
  | nil => rfl
  | cons next rest => rw [dropEmpty, if_neg h]

theorem dropEmpty_slash {parts : List String} (h : parts ≠ []) : dropEmpty ("" :: parts) = dropEmpty parts := by
  cases parts with
  | nil => exact absurd rfl h
  | cons part rest => rw [dropEmpty, if_pos rfl]

/-- Slashes in front of a path are empty segments in front. -/
theorem split_dropWhile (cs : List Char) :
    (Text.splitAt '/' (cs.dropWhile (· == '/'))).map String.ofList =
      dropEmpty ((Text.splitAt '/' cs).map String.ofList) := by
  induction cs with
  | nil => rfl
  | cons c cs ih =>
    have hparts : (Text.splitAt '/' cs).map String.ofList ≠ [] := by
      rw [Text.splitAt_eq_splitOn]
      simp
    by_cases hc : c = '/'
    · have hsplit : Text.splitAt '/' (c :: cs) = [] :: Text.splitAt '/' cs := by
        rw [Text.splitAt_eq_splitOn, Text.splitAt_eq_splitOn, List.splitOn_cons_eq_if_modifyHead, hc]
        simp
      rw [List.dropWhile_cons_of_pos (by simp [hc]), ih, hsplit, List.map_cons]
      exact (dropEmpty_slash hparts).symm
    · rw [List.dropWhile_cons_of_neg (by simpa using hc)]
      have hsplit : ∃ first rest, Text.splitAt '/' (c :: cs) = (c :: first) :: rest := by
        rw [Text.splitAt_eq_splitOn, List.splitOn_cons_eq_if_modifyHead, if_neg (by simpa using hc)]
        cases hp : cs.splitOn '/' with
        | nil => exact absurd hp (List.splitOn_ne_nil '/' cs)
        | cons first rest => exact ⟨first, rest, rfl⟩
      obtain ⟨first, rest, hsplit⟩ := hsplit
      have hne : String.ofList (c :: first) ≠ "" := by
        intro h
        have hnil := congrArg String.toList h
        simp at hnil
      rw [hsplit, List.map_cons, dropEmpty_of_ne hne]

end Route

open Route (segments dropEmpty)

/-- What some segments are counted under. -/
def endpointOf (parts : List String) : Endpoint :=
  match Endpoint.fixed.find? fun e => segments e.label == parts with
  | some e => e
  | none => Endpoint.ofSegments (dropEmpty parts)

theorem endpoint_eq (path : String) : Endpoint.ofPath path = endpointOf (segments path) := by
  have hsame : ∀ e : Endpoint, (e.label == path) = (segments e.label == segments path) := by
    intro e
    rw [Bool.eq_iff_iff, beq_iff_eq, beq_iff_eq]
    constructor
    · intro h
      rw [h]
    · exact Route.segments_injective
  rw [Endpoint.ofPath, endpointOf, funext hsame]
  cases Endpoint.fixed.find? fun e => segments e.label == segments path with
  | some e => rfl
  | none =>
    dsimp only
    rw [Route.split_dropWhile]
    rfl

/-! ### Routes -/

/-- The route with the words that its path has in the places of names. -/
def Route.generic : Route → Route
  | .user _ => .user ":username"
  | .members _ => .members ":group"
  | .membership .. => .membership ":group" ":username"
  | route => route

/-- A place of a name in braces. -/
def braced (part : String) : String :=
  match part.toList with
  | ':' :: name => "\x7b" ++ String.ofList name ++ "\x7d"
  | _ => part

theorem label_endpoint (route : Route) :
    route.endpoint.label = String.intercalate "/" (route.generic.parts.map braced) := by
  have huser : Endpoint.user.label =
      String.intercalate "/" ((Route.user ":username").parts.map braced) := by decide +kernel
  have hmembers : Endpoint.members.label =
      String.intercalate "/" ((Route.members ":group").parts.map braced) := by decide +kernel
  have hmembership : Endpoint.membership.label =
      String.intercalate "/" ((Route.membership ":group" ":username").parts.map braced) := by decide +kernel
  cases route with
  | user username => exact huser
  | members group => exact hmembers
  | membership group username => exact hmembership
  | _ => decide +kernel

theorem endpointOf_long {parts : List String} (h : 4 ≤ (dropEmpty parts).length) :
    endpointOf parts = Endpoint.ofSegments (dropEmpty parts) := by
  have hfixed : ∀ e ∈ Endpoint.fixed, (dropEmpty (segments e.label)).length < 4 := by decide +kernel
  have hnone : (Endpoint.fixed.find? fun e => segments e.label == parts) = none := by
    rw [List.find?_eq_none]
    intro e he heq
    have hshort := hfixed e he
    rw [beq_iff_eq.mp heq] at hshort
    omega
  rw [endpointOf, hnone]

theorem endpointOf_parts (route : Route) : endpointOf route.parts = route.endpoint := by
  have hdrop : ∀ rest, dropEmpty ("" :: "api" :: rest) = "api" :: rest := by
    intro rest
    rw [Route.dropEmpty_slash (by simp), Route.dropEmpty_of_ne (by decide)]
  cases route with
  | user username =>
    rw [endpointOf_long, Route.parts, hdrop]
    · rfl
    · simp [Route.parts, hdrop]
  | members group =>
    rw [endpointOf_long, Route.parts, hdrop]
    · rfl
    · simp [Route.parts, hdrop]
  | membership group username =>
    rw [endpointOf_long, Route.parts, hdrop]
    · rfl
    · simp [Route.parts, hdrop]
  | _ => decide +kernel

/-- The endpoint of a path that leads to a route is that of the route. -/
theorem endpoint_of_route {path : String} {route : Route} (h : Route.ofPath? path = some route) :
    Endpoint.ofPath path = route.endpoint := by
  rw [endpoint_eq, Route.parts_of_ofSegments h, endpointOf_parts]

/-! ### Names -/

/-- Paths that differ in the places of names at most. -/
inductive Renamed : List String → List String → Prop where
  | same (parts : List String) : Renamed parts parts
  | slash {parts parts' : List String} (h : Renamed parts parts') : Renamed ("" :: parts) ("" :: parts')
  | user (u u' : String) (rest : List String) :
    Renamed ("api" :: "v1" :: "users" :: u :: rest) ("api" :: "v1" :: "users" :: u' :: rest)
  | group (g g' : String) (rest : List String) :
    Renamed ("api" :: "v1" :: "groups" :: g :: rest) ("api" :: "v1" :: "groups" :: g' :: rest)
  | membership (g g' u u' : String) (rest : List String) :
    Renamed ("api" :: "v1" :: "groups" :: g :: "users" :: u :: rest)
      ("api" :: "v1" :: "groups" :: g' :: "users" :: u' :: rest)

theorem ofSegments_renamed {parts parts' : List String} (h : Renamed parts parts') :
    parts = parts' ∨ (4 ≤ (dropEmpty parts).length ∧ 4 ≤ (dropEmpty parts').length ∧
      Endpoint.ofSegments (dropEmpty parts) = Endpoint.ofSegments (dropEmpty parts')) := by
  have hdrop : ∀ rest, dropEmpty ("api" :: rest) = "api" :: rest := Route.dropEmpty_of_ne (by decide)
  induction h with
  | same parts => exact Or.inl rfl
  | slash h ih =>
    rcases ih with hsame | ⟨hlong, hlong', hends⟩
    · rw [hsame]
      exact Or.inl rfl
    · rw [Route.dropEmpty_slash, Route.dropEmpty_slash]
      -- A slash at the front is dropped unless nothing follows it, and here four parts do.
      · exact Or.inr ⟨hlong, hlong', hends⟩
      · rintro rfl
        cases hlong'
      · rintro rfl
        cases hlong
  | user u u' rest =>
    rw [hdrop, hdrop]
    refine Or.inr ⟨by simp, by simp, ?_⟩
    cases rest <;> rfl
  | group g g' rest =>
    rw [hdrop, hdrop]
    refine Or.inr ⟨by simp, by simp, ?_⟩
    cases rest with
    | nil => rfl
    | cons word rest =>
      by_cases hword : word = "users"
      · rw [hword]
        cases rest with
        | nil => rfl
        | cons u rest => cases rest <;> rfl
      · simp [Endpoint.ofSegments, hword]
  | membership g g' u u' rest =>
    rw [hdrop, hdrop]
    refine Or.inr ⟨by simp, by simp, ?_⟩
    cases rest <;> rfl

/-- Names in a path do not change what it is counted under. -/
theorem endpoint_renamed {path path' : String} (h : Renamed (segments path) (segments path')) :
    Endpoint.ofPath path = Endpoint.ofPath path' := by
  rw [endpoint_eq, endpoint_eq]
  rcases ofSegments_renamed h with hsame | ⟨hlong, hlong', hends⟩
  · rw [hsame]
  · rw [endpointOf_long hlong, endpointOf_long hlong', hends]

end DirectoryGateway.Gateway
