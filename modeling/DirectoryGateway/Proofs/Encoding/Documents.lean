import DirectoryGateway.Directory.Codec
import DirectoryGateway.KeySet.Jwk
import DirectoryGateway.Proofs.Json.Fields
import DirectoryGateway.Proofs.Time.Text
import DirectoryGateway.Token.Claims
import Mathlib.Data.String.Basic

/-!
# Documents that are read back

Users, groups, collections of them, claims and key sets are what is read from the documents that they are written as, whatever
they leave out.
-/

namespace DirectoryGateway

open Json (Tells Fills written tells_written tells_str tells_bool tells_nat tells_int tells_list fills_required
  fills_optional fills_optional_str fills_withDefault)

/-! ### Attributes and times -/

namespace Directory

namespace Attributes

/-- Attributes as they are kept: each name once, in order. -/
def Sorted (as : Attributes) : Prop :=
  as.Pairwise fun a b => a.1 < b.1

instance (as : Attributes) : Decidable as.Sorted :=
  inferInstanceAs (Decidable (List.Pairwise _ _))

theorem set_of_later {name value : String} {as : Attributes} (later : ∀ a ∈ as, a.1 < name) :
    Attributes.set name value as = as ++ [(name, value)] := by
  induction as with
  | nil => rfl
  | cons a as ih =>
    rw [List.forall_mem_cons] at later
    rw [Attributes.set, if_neg (ne_of_gt later.1), if_neg (lt_asymm later.1), ih later.2]
    rfl

theorem readFields_sorted (before : Attributes) {as : Attributes} (sorted : Sorted (before ++ as)) :
    Attributes.readFields (as.map fun a => (Json.encode a.1, .str a.2)) before = some (before ++ as) := by
  induction as generalizing before with
  | nil => rw [List.append_nil]; rfl
  | cons a as ih =>
    have later : ∀ b ∈ before, b.1 < a.1 := fun b hb =>
      (List.pairwise_append.mp sorted).2.2 b hb a List.mem_cons_self
    have others := ih (before ++ [a]) (by simpa using sorted)
    rw [List.map_cons, Attributes.readFields, Json.decode?_encode, Json.toText?_str]
    dsimp only
    rw [set_of_later later]
    simpa using others

theorem tells_toJson {as : Attributes} (sorted : as.Sorted) : Tells Attributes.ofJson? as.toJson as := by
  refine ⟨Json.wellFormed_obj ?_, ?_⟩
  · simp only [List.forall_mem_map]
    exact fun a _ => Json.wellFormed_str a.2
  · rw [Attributes.toJson, Json.obj, List.map_map]
    exact readFields_sorted [] sorted

end Attributes

theorem tells_timestamp {t : Time.Timestamp} (valid : t.valid = true) :
    Tells timestampOfJson? (timestampToJson t) t := by
  refine ⟨Json.wellFormed_str _, ?_⟩
  rw [timestampOfJson?, timestampToJson, Json.toText?_str, Option.bind_some, String.toList_ofList]
  exact Time.read?_text valid

/-! ### Users and groups -/

/-- A user as it can be kept: with sorted attributes, and a time that has a date. -/
structure User.Kept (u : User) : Prop where
  attributes : u.attributes.Sorted
  createdAt : ∀ t ∈ u.createdAt, t.valid = true

def User.slots (u : User) : Json.Slots :=
  [some (.str u.username), u.status.map .str, some (.bool u.enabled), u.email.map .str,
    if u.attributes = [] then none else some u.attributes.toJson, u.createdAt.map timestampToJson]

theorem User.toJson_eq (u : User) : u.toJson = .obj (written User.fields u.slots) := by
  by_cases empty : u.attributes = []
  · simp [User.toJson, User.slots, User.fields, written, empty]
  · simp [User.toJson, User.slots, User.fields, written, empty]

theorem User.tells_toJson {u : User} (kept : u.Kept) : Tells User.ofJson? u.toJson u := by
  have username := fills_required (tells_str u.username)
  have status := fills_optional_str u.status
  have enabled := fills_required (tells_bool u.enabled)
  have email := fills_optional_str u.email
  have attributes := fills_withDefault (Attributes.tells_toJson kept.attributes)
  have createdAt : Fills (Json.optional timestampOfJson?) (u.createdAt.map timestampToJson) u.createdAt := by
    refine fills_optional ?_ fun t ht => tells_timestamp (kept.createdAt t ht)
    intro t h
    cases h
  rw [User.toJson_eq]
  refine tells_written rfl (by decide) ?_ ?_
  · simp only [User.slots, List.forall_mem_cons, List.not_mem_nil, false_implies, implies_true, and_true]
    exact ⟨username.wellFormed, status.wellFormed, enabled.wellFormed, email.wellFormed, attributes.wellFormed,
      createdAt.wellFormed⟩
  · intro v slots
    rw [User.ofJson?, slots, User.slots]
    simp only [username.read, status.read, enabled.read, email.read, attributes.read, createdAt.read]
    rfl

/-- A group as it can be kept: with a precedence of 32 bits. -/
def Group.Kept (g : Group) : Prop :=
  ∀ p ∈ g.precedence, -(Text.maxInt32 : Int) - 1 ≤ p ∧ p ≤ Text.maxInt32

def Group.slots (g : Group) : Json.Slots :=
  [some (.str g.name), g.description.map .str, g.precedence.map .int]

theorem Group.toJson_eq (g : Group) : g.toJson = .obj (written Group.fields g.slots) := by
  simp [Group.toJson, Group.slots, Group.fields, written]

theorem Group.tells_toJson {g : Group} (kept : g.Kept) : Tells Group.ofJson? g.toJson g := by
  have name := fills_required (tells_str g.name)
  have description := fills_optional_str g.description
  have precedence : Fills (Json.optional precedenceOfJson?) (g.precedence.map .int) g.precedence := by
    refine fills_optional ?_ fun p hp => tells_int (kept p hp).1 (kept p hp).2
    intro p h
    cases h
  rw [Group.toJson_eq]
  refine tells_written rfl (by decide) ?_ ?_
  · simp only [Group.slots, List.forall_mem_cons, List.not_mem_nil, false_implies, implies_true, and_true]
    exact ⟨name.wellFormed, description.wellFormed, precedence.wellFormed⟩
  · intro v slots
    rw [Group.ofJson?, slots, Group.slots]
    simp only [name.read, description.read, precedence.read]
    rfl

/-! ### Collections -/

theorem Collection.tells_toJson {α : Type} {write : α → Json} {read : Json → Option α} {c : Collection α}
    (count : c.count ≤ Text.maxWord64) (items : ∀ x ∈ c.items, Tells read (write x) x) :
    Tells (Collection.ofJson? read) (c.toJson write) c := by
  have count := fills_required (tells_nat count)
  have items := fills_required (tells_list items)
  have layout : c.toJson write =
      .obj (written Collection.fields [some (.nat c.count), some (.list (c.items.map write))]) := rfl
  rw [layout]
  refine tells_written rfl (by decide) ?_ ?_
  · simp only [List.forall_mem_cons, List.not_mem_nil, false_implies, implies_true, and_true]
    exact ⟨count.wellFormed, items.wellFormed⟩
  · intro v slots
    rw [Collection.ofJson?, slots]
    simp only [count.read, items.read]
    rfl

end Directory

/-! ### Claims -/

namespace Token

/-- Claims as they can be kept: with times of 64 bits. -/
structure Claims.Kept (c : Claims) : Prop where
  expires : -(Text.maxInt64 : Int) - 1 ≤ c.expires ∧ c.expires ≤ Text.maxInt64
  issued : -(Text.maxInt64 : Int) - 1 ≤ c.issued ∧ c.issued ≤ Text.maxInt64

def Claims.slots (c : Claims) : Json.Slots :=
  [some (.str c.subject), some (.int c.expires), some (.int c.issued), some (.str c.use), c.username.map .str,
    if c.groups = [] then none else some (.list (c.groups.map .str)), c.client.map .str, c.scope.map .str]

theorem Claims.toJson_eq (c : Claims) : c.toJson = .obj (written Claims.fields c.slots) := by
  by_cases empty : c.groups = []
  · simp [Claims.toJson, Claims.slots, Claims.fields, written, empty]
  · simp [Claims.toJson, Claims.slots, Claims.fields, written, empty]

theorem Claims.tells_toJson {c : Claims} (kept : c.Kept) : Tells Claims.ofJson? c.toJson c := by
  have subject := fills_required (tells_str c.subject)
  have expires : Fills (Json.required timeOfJson?) (some (.int c.expires)) c.expires :=
    fills_required (tells_int kept.expires.1 kept.expires.2)
  have issued : Fills (Json.required timeOfJson?) (some (.int c.issued)) c.issued :=
    fills_required (tells_int kept.issued.1 kept.issued.2)
  have use := fills_required (tells_str c.use)
  have username := fills_optional_str c.username
  have groups := fills_withDefault (tells_list fun group (_ : group ∈ c.groups) => tells_str group)
  have client := fills_optional_str c.client
  have scope := fills_optional_str c.scope
  rw [Claims.toJson_eq]
  refine tells_written rfl (by decide) ?_ ?_
  · simp only [Claims.slots, List.forall_mem_cons, List.not_mem_nil, false_implies, implies_true, and_true]
    exact ⟨subject.wellFormed, expires.wellFormed, issued.wellFormed, use.wellFormed, username.wellFormed,
      groups.wellFormed, client.wellFormed, scope.wellFormed⟩
  · intro v slots
    rw [Claims.ofJson?, slots, Claims.slots]
    simp only [subject.read, expires.read, issued.read, use.read, username.read, groups.read, client.read, scope.read]
    rfl

end Token

/-! ### Key sets -/

namespace KeySet

def Jwk.slots (k : Jwk) : Json.Slots :=
  [some (.str k.keyType), some (.str k.keyId), k.modulus.map .str, k.exponent.map .str, k.algorithm.map .str,
    k.use.map .str]

theorem Jwk.toJson_eq (k : Jwk) : k.toJson = .obj (written Jwk.fields k.slots) := by
  simp [Jwk.toJson, Jwk.slots, Jwk.fields, written]

theorem Jwk.tells_toJson (k : Jwk) : Tells Jwk.ofJson? k.toJson k := by
  have keyType := fills_required (tells_str k.keyType)
  have keyId := fills_required (tells_str k.keyId)
  have modulus := fills_optional_str k.modulus
  have exponent := fills_optional_str k.exponent
  have algorithm := fills_optional_str k.algorithm
  have use := fills_optional_str k.use
  rw [Jwk.toJson_eq]
  refine tells_written rfl (by decide) ?_ ?_
  · simp only [Jwk.slots, List.forall_mem_cons, List.not_mem_nil, false_implies, implies_true, and_true]
    exact ⟨keyType.wellFormed, keyId.wellFormed, modulus.wellFormed, exponent.wellFormed, algorithm.wellFormed,
      use.wellFormed⟩
  · intro v slots
    rw [Jwk.ofJson?, slots, Jwk.slots]
    simp only [keyType.read, keyId.read, modulus.read, exponent.read, algorithm.read, use.read]
    rfl

theorem JwkSet.tells_toJson (s : JwkSet) : Tells JwkSet.ofJson? s.toJson s := by
  have keys := fills_required (tells_list fun key (_ : key ∈ s.keys) => Jwk.tells_toJson key)
  have layout : s.toJson = .obj (written JwkSet.fields [some (.list (s.keys.map Jwk.toJson))]) := rfl
  rw [layout]
  refine tells_written rfl (by decide) ?_ ?_
  · simp only [List.forall_mem_cons, List.not_mem_nil, false_implies, implies_true, and_true]
    exact keys.wellFormed
  · intro v slots
    rw [JwkSet.ofJson?, slots]
    simp only [keys.read]
    rfl

end KeySet

/-! ### Documents -/

open Directory (User Group Collection)
open KeySet (JwkSet)
open Token (Claims)

/-- What is written is read back, whatever was left out; and claims may spell the name of the user either way, but not both. -/
theorem documents_are_read_back :
    (∀ u : User, u.Kept → (Json.read? u.toJson.render).bind User.ofJson? = some u) ∧
    (∀ g : Group, g.Kept → (Json.read? g.toJson.render).bind Group.ofJson? = some g) ∧
    (∀ c : Collection User, c.count ≤ Text.maxWord64 → (∀ u ∈ c.items, u.Kept) →
      (Json.read? (c.toJson User.toJson).render).bind (Collection.ofJson? User.ofJson?) = some c) ∧
    (∀ c : Collection Group, c.count ≤ Text.maxWord64 → (∀ g ∈ c.items, g.Kept) →
      (Json.read? (c.toJson Group.toJson).render).bind (Collection.ofJson? Group.ofJson?) = some c) ∧
    (∀ s : JwkSet, JwkSet.read? s.toJson.render = some s) ∧
    (∀ c : Claims, c.Kept → (Json.read? c.toJson.render).bind Claims.ofJson? = some c) ∧
    ∀ document fields, Json.read? document = some (.record fields) →
      (∀ other, Json.read? other = some (.record (fields.map (Json.respelled "username" "cognito:username"))) →
        (Json.read? other).bind Claims.ofJson? = (Json.read? document).bind Claims.ofJson?) ∧
      (Json.Named fields "username" → Json.Named fields "cognito:username" →
        (Json.read? document).bind Claims.ofJson? = none) := by
  have alike : Json.Alike Claims.fields "username" "cognito:username" := by decide
  refine ⟨?_, ?_, ?_, ?_, ?_, ?_, ?_⟩
  · exact fun u kept => (User.tells_toJson kept).document
  · exact fun g kept => (Group.tells_toJson kept).document
  · exact fun c count kept => (Collection.tells_toJson count fun u hu => User.tells_toJson (kept u hu)).document
  · exact fun c count kept => (Collection.tells_toJson count fun g hg => Group.tells_toJson (kept g hg)).document
  · exact fun s => (JwkSet.tells_toJson s).document
  · exact fun c kept => (Claims.tells_toJson kept).document
  · intro document fields read
    rw [read, Option.bind_some]
    constructor
    · intro other readOther
      rw [readOther, Option.bind_some, Claims.ofJson?, Json.slots_respelled alike, Claims.ofJson?]
    · intro first second
      have twice := Json.slots_named_twice (by decide) alike (by decide) first second
      rw [Claims.ofJson?, twice]

/-- Created in the last second of the first day of all, which is a leap second, and a nanosecond. -/
def firstUser : User :=
  ⟨"zo\u00eb\n", none, false, some "", [("", "\u00e9"), ("a\"", "")], some ⟨-262143, 1, 1, 23, 59, 60, 1⟩⟩

def annClaims : Claims :=
  ⟨"subject", -1, 0, "id", some "ann", [], none, none⟩

/-- The fields of the claims, with the name that tokens of the kind id have for the user. -/
def annFields : List (String × Json) :=
  [("sub", .str "subject"), ("exp", .int (-1)), ("iat", .int 0), ("token_use", .str "id"),
    ("cognito:username", .str "ann")]

theorem firstUser_and_ann_are_read_back :
    (Json.read? firstUser.toJson.render).bind User.ofJson? = some firstUser ∧
    (Json.read? (Json.obj annFields).render).bind Claims.ofJson? = some annClaims ∧
    (Json.read? (Json.obj (annFields ++ [("username", .str "ann")])).render).bind Claims.ofJson? = none := by
  obtain ⟨users, -, -, -, -, claims, spellings⟩ := documents_are_read_back
  have wellFormed : ∀ field ∈ annFields ++ [("username", .str "ann")], field.2.WellFormed := by
    simp only [annFields, List.cons_append, List.nil_append, List.forall_mem_cons, List.not_mem_nil, false_implies,
      implies_true, Json.wellFormed_str, Json.wellFormed_int, and_self]
  refine ⟨users firstUser ⟨by decide, by rintro t ⟨⟩; decide⟩, ?_, ?_⟩
  · have kept : annClaims.Kept := ⟨by decide, by decide⟩
    have read := Json.read?_render (Claims.tells_toJson kept).wellFormed
    have readOther := Json.read?_render
      (Json.wellFormed_obj fun field mem => wellFormed field (List.mem_append_left _ mem))
    rw [(spellings _ _ read).1 _ ?_, claims annClaims kept]
    rw [readOther]
    simp [annFields, annClaims, Json.respelled, Json.obj]
  · have read := Json.read?_render (Json.wellFormed_obj wellFormed)
    refine (spellings _ _ read).2 ?_ ?_
    · exact ⟨_, List.mem_map.mpr ⟨("username", .str "ann"), by simp, rfl⟩, Json.decode?_encode _⟩
    · exact ⟨_, List.mem_map.mpr ⟨("cognito:username", .str "ann"), by simp [annFields], rfl⟩, Json.decode?_encode _⟩

end DirectoryGateway
