import DirectoryGateway.Gateway.Route
import DirectoryGateway.Proofs.Text.Splitting

/-!
# Which paths lead to a route

A path and its segments determine each other: the segments hold no slash, and with slashes between them they are the path.
-/

namespace DirectoryGateway.Gateway.Route

theorem segments_eq_iff {path : String} {parts : List String} (h : parts ≠ []) :
    segments path = parts ↔
      path = String.intercalate "/" parts ∧ ∀ part ∈ parts, '/' ∉ part.toList := by
  have hsep : "/".toList = ['/'] := rfl
  have hround : ∀ css : List (List Char), (css.map String.ofList).map String.toList = css := by
    intro css
    simp [List.map_map, Function.comp_def]
  rw [segments, Text.splitAt_eq_splitOn, ← String.toList_inj, String.toList_intercalate, hsep]
  constructor
  · intro hs
    have hparts : path.toList.splitOn '/' = parts.map String.toList := by
      rw [← hs, hround]
    refine ⟨?_, ?_⟩
    · rw [← hparts, List.intercalate_splitOn]
    · intro part hpart
      have hmem : part.toList ∈ path.toList.splitOn '/' := by
        rw [hparts]
        exact List.mem_map_of_mem hpart
      exact Text.not_mem_of_mem_splitOn hmem
  · rintro ⟨hpath, hfree⟩
    have hall : ∀ cs ∈ parts.map String.toList, '/' ∉ cs := by
      intro cs hcs
      obtain ⟨part, hpart, rfl⟩ := List.mem_map.mp hcs
      exact hfree part hpart
    rw [hpath, List.splitOn_intercalate '/' hall (by simpa using h), List.map_map]
    simp [Function.comp_def]

/-- The segments of the paths that lead to a route. -/
def parts : Route → List String
  | .health => ["", "health"]
  | .ready => ["", "ready"]
  | .metrics => ["", "metrics"]
  | .me => ["", "api", "v1", "me"]
  | .groups => ["", "api", "v1", "groups"]
  | .users => ["", "api", "v1", "users"]
  | .user username => ["", "api", "v1", "users", username]
  | .members group => ["", "api", "v1", "groups", group, "users"]
  | .membership group username => ["", "api", "v1", "groups", group, "users", username]

theorem parts_ne_nil (route : Route) : route.parts ≠ [] := by
  cases route <;> exact List.cons_ne_nil _ _

theorem parts_of_ofSegments {written : List String} {route : Route}
    (h : ofSegments? written = some route) : written = route.parts := by
  unfold ofSegments? at h
  split at h
  case h_7 username =>
    split at h
    · cases h
    · cases h
      rfl
  case h_9 group username =>
    split at h
    · cases h
    · cases h
      rfl
  all_goals
    cases h
    try rfl

/-- The path that leads to a route is written in one way. -/
theorem path_of_route {path : String} {route : Route} (h : ofPath? path = some route) :
    path = String.intercalate "/" route.parts ∧ ∀ part ∈ route.parts, '/' ∉ part.toList :=
  (segments_eq_iff route.parts_ne_nil).mp (parts_of_ofSegments h)

theorem ofPath_membership_iff {path group username : String} :
    ofPath? path = some (.membership group username) ↔
      path = "/api/v1/groups/" ++ group ++ "/users/" ++ username ∧ username ≠ "" ∧
        '/' ∉ group.toList ∧ '/' ∉ username.toList := by
  have hjoin : String.intercalate "/" ["", "api", "v1", "groups", group, "users", username] =
      "/api/v1/groups/" ++ group ++ "/users/" ++ username := by
    simp [← String.toList_inj]
  have hsegments : segments path = ["", "api", "v1", "groups", group, "users", username] ↔ _ :=
    segments_eq_iff (by simp)
  rw [hjoin] at hsegments
  have hfree : (∀ part ∈ ["", "api", "v1", "groups", group, "users", username], '/' ∉ part.toList) ↔
      '/' ∉ group.toList ∧ '/' ∉ username.toList := by
    simp
  rw [hfree] at hsegments
  constructor
  · intro h
    obtain ⟨hpath, hnames⟩ := hsegments.mp (parts_of_ofSegments h)
    refine ⟨hpath, ?_, hnames⟩
    intro hempty
    rw [ofPath?, hsegments.mpr ⟨hpath, hnames⟩, hempty] at h
    cases h
  · rintro ⟨hpath, hne, hnames⟩
    rw [ofPath?, hsegments.mpr ⟨hpath, hnames⟩]
    simp [ofSegments?, hne]

theorem ofPath_members {path group : String} (hpath : path = "/api/v1/groups/" ++ group ++ "/users")
    (free : '/' ∉ group.toList) : ofPath? path = some (.members group) := by
  have hjoin : String.intercalate "/" ["", "api", "v1", "groups", group, "users"] =
      "/api/v1/groups/" ++ group ++ "/users" := by
    simp [← String.toList_inj]
  have hfree : ∀ part ∈ ["", "api", "v1", "groups", group, "users"], '/' ∉ part.toList := by
    simpa using free
  rw [← hjoin] at hpath
  rw [ofPath?, (segments_eq_iff (by simp)).mpr ⟨hpath, hfree⟩, ofSegments?]

theorem path_of_public {path : String} {route : Route} (h : ofPath? path = some route)
    (open_ : route.isProtected = false) :
    path ∈ ["/health", "/ready", "/metrics"] := by
  have hpath := (path_of_route h).1
  cases route with
  | health => simp [hpath, parts]
  | ready => simp [hpath, parts]
  | metrics => simp [hpath, parts]
  | _ => cases open_

end DirectoryGateway.Gateway.Route
