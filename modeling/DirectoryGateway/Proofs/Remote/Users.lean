import DirectoryGateway.Proofs.Directory.Attributes
import DirectoryGateway.Proofs.Remote.Cursors

/-!
# Users on every way in

A user may come alone or in a page of a listing, and its attributes stand in a member of another name then. Whichever way
it comes, the gateway makes the same user of the same data: of the attributes of a name it keeps the last that has a
value, and the attribute "email" is also the user's address.
-/

namespace DirectoryGateway.Remote

open DirectoryGateway.Directory
open DirectoryGateway.Json (Raw)
open DirectoryGateway.Provider

variable {α β : Type}

/-! ### What a document says of a user -/

/-- The data of a user, before anything is made of it. -/
structure Profile where
  username : Option String
  attributes : List (String × Option String)
  enabled : Option Bool
  status : Option String
  created : Option Time.Timestamp
  deriving DecidableEq

def Profile.user (p : Profile) : User :=
  buildUser p.username (valued p.attributes) p.enabled p.status p.created

def readEntry (v : Raw) : Option (String × Option String) := do
  let ms ← Members.ofRaw? ["Name", "Value"] v
  let name ← ms.get readText "Name"
  let value ← ms.get readText "Value"
  return (name.getD "", value)

def readProfile (attributesName : String) (ms : Members) : Option Profile := do
  let username ← ms.get readText "Username"
  let attributes ← ms.get (readItems readEntry) attributesName
  let created ← ms.get readTime "UserCreateDate"
  let _ ← ms.get readTime "UserLastModifiedDate"
  let enabled ← ms.get readFlag "Enabled"
  let status ← ms.get readText "UserStatus"
  let _ ← ms.get (readItems readDelivery) "MFAOptions"
  return ⟨username, attributes.getD [], enabled, status, created.bind id⟩

/-- The profile in an item of a page. -/
def listedProfile? (v : Raw) : Option Profile :=
  (Members.ofRaw? (userMembers "Attributes") v).bind (readProfile "Attributes")

/-- The members that only the document of a single user has, beside the attributes. -/
def singleMembers : List String :=
  ["PreferredMfaSetting", "UserMFASettingList"]

/-- The profile in the document of a single user. -/
def singleProfile? (v : Raw) : Option Profile := do
  let ms ← Members.ofRaw? (userMembers "UserAttributes" ++ singleMembers) v
  let p ← readProfile "UserAttributes" ms
  let _ ← ms.get readText "PreferredMfaSetting"
  let _ ← ms.get (readItems readText) "UserMFASettingList"
  return p

/-- The profiles in a page, and its token. -/
def profiles? (operation : Operation) (v : Raw) : Option (List Profile × Option String) :=
  readPage listedProfile? "Users" (tokenName operation) v

def pageOf (profiles : List Profile × Option String) : Page User :=
  .ofItems (profiles.1.map Profile.user) profiles.2

/-! ### Readers that make something of what others read -/

theorem Members.get_null (read : Raw → Option α) (name n : String) (ms : Members) :
    Members.get read name ((n, .null) :: ms) = ms.get read name := by
  rw [Members.get]

theorem Members.get_cons (read : Raw → Option α) (name n : String) {v : Raw} (given : v ≠ .null) (ms : Members) :
    Members.get read name ((n, v) :: ms) =
      if n = name then
        match read v, ms.get read name with
        | some first, some later => some (later <|> some first)
        | _, _ => none
      else ms.get read name :=
  Members.get.eq_3 read name n v ms given

theorem Members.get_map (read : Raw → Option α) (f : α → β) (name : String) (ms : Members) :
    ms.get (fun v => (read v).map f) name = (ms.get read name).map (Option.map f) := by
  induction ms with
  | nil => rfl
  | cons m ms ih =>
    obtain ⟨n, v⟩ := m
    by_cases isNull : v = .null
    · rw [isNull, Members.get_null, Members.get_null, ih]
    · rw [Members.get_cons _ name n isNull, Members.get_cons _ name n isNull, ih]
      by_cases same : n = name
      · rw [if_pos same, if_pos same]
        cases read v with
        | none => rfl
        | some first =>
          cases Members.get read name ms with
          | none => rfl
          | some later => cases later <;> rfl
      · rw [if_neg same, if_neg same]

theorem mapM_map_result (read : α → Option β) {γ : Type} (f : β → γ) (xs : List α) :
    xs.mapM (fun x => (read x).map f) = (xs.mapM read).map (List.map f) := by
  induction xs with
  | nil => rfl
  | cons x xs ih =>
    rw [List.mapM_cons, List.mapM_cons, ih]
    cases read x with
    | none => rfl
    | some y => cases xs.mapM read <;> rfl

theorem readItems_map (read : Raw → Option α) (f : α → β) (v : Raw) :
    readItems (fun v => (read v).map f) v = (readItems read v).map (List.map f) := by
  cases v with
  | list items => exact mapM_map_result read f items
  | _ => rfl

theorem Members.get_readItems_map (read : Raw → Option α) (f : α → β) (name : String) (ms : Members) :
    ms.get (readItems fun v => (read v).map f) name =
      (ms.get (readItems read) name).map (Option.map (List.map f)) := by
  rw [← Members.get_map]
  exact congrArg (fun reader => ms.get reader name) (funext (readItems_map read f))

theorem readPage_map (read : Raw → Option α) (f : α → β) (itemsName tokenName : String) (v : Raw) :
    readPage (fun v => (read v).map f) itemsName tokenName v =
      (readPage read itemsName tokenName v).map fun page => (page.1.map f, page.2) := by
  have items : ∀ given : Option (List α), (given.map (List.map f)).getD [] = (given.getD []).map f := by
    intro given
    cases given <;> rfl
  simp only [readPage, Members.get_readItems_map, Option.bind_eq_bind, Option.pure_def, Option.map_bind,
    Option.bind_map, Function.comp_def, Option.map_some, items]

/-! ### Users are made of profiles -/

theorem readAttribute_eq (v : Raw) :
    readAttribute v = (readEntry v).map fun e => e.2.map fun value => (e.1, value) := by
  simp only [readAttribute, readEntry, Option.bind_eq_bind, Option.pure_def, Option.map_bind, Function.comp_def,
    Option.map_some]

theorem filterMap_getD_map (entries : Option (List (String × Option String))) :
    ((entries.map (List.map fun e => e.2.map fun value => (e.1, value))).getD []).filterMap id =
      valued (entries.getD []) := by
  cases entries with
  | none => rfl
  | some entries => exact List.filterMap_map

theorem readUser_eq (attributesName : String) (ms : Members) :
    readUser attributesName ms = (readProfile attributesName ms).map Profile.user := by
  rw [readUser, readProfile, funext readAttribute_eq]
  simp only [Members.get_readItems_map, Option.bind_eq_bind, Option.pure_def, Option.map_bind, Option.bind_map,
    Function.comp_def, Option.map_some, filterMap_getD_map, Profile.user]

theorem readListedUser_eq (v : Raw) : readListedUser v = (listedProfile? v).map Profile.user := by
  rw [readListedUser, listedProfile?, Option.map_bind]
  exact congrArg _ (funext (readUser_eq "Attributes"))

theorem readSingleUser_eq (v : Raw) : readSingleUser v = (singleProfile? v).map Profile.user := by
  simp only [readSingleUser, singleProfile?, singleMembers, readUser_eq, Option.bind_eq_bind, Option.pure_def,
    Option.map_bind, Option.bind_map, Function.comp_def, Option.map_some]

theorem readUsers_eq (operation : Operation) (v : Raw) :
    readUsers operation v = (profiles? operation v).map pageOf := by
  rw [readUsers, funext readListedUser_eq, readPage_map, profiles?]
  cases readPage listedProfile? "Users" (tokenName operation) v <;> rfl

/-! ### The same data under other names -/

/-- A name spelled `b` where it is `a`. -/
def respell (a b name : String) : String :=
  if name = a then b else name

/-- A field whose name is spelled `b` where it is `a`. -/
def renamed (a b : String) (field : List UInt8 × Raw) : List UInt8 × Raw :=
  (if Json.decode? field.1 = some a then Json.encode b else field.1, field.2)

theorem decode?_renamed (a b : String) (field : List UInt8 × Raw) :
    Json.decode? (renamed a b field).1 = (Json.decode? field.1).map (respell a b) := by
  rw [renamed]
  by_cases here : Json.decode? field.1 = some a
  · rw [if_pos here, here, Json.decode?_encode, Option.map_some, respell, if_pos rfl]
  · rw [if_neg here]
    cases named : Json.decode? field.1 with
    | none => rfl
    | some name =>
      have other : name ≠ a := fun h => here (named.trans (congrArg some h))
      rw [Option.map_some, respell, if_neg other]

def Members.respelled (a b : String) (ms : Members) : Members :=
  ms.map fun m => (respell a b m.1, m.2)

/-- The members of renamed fields are the members, renamed, if the new names are as well known as the old ones. -/
theorem ofFields_renamed {known known' : List String} {a b : String} {fields : List (List UInt8 × Raw)}
    (alike : ∀ field ∈ fields, ∀ name, Json.decode? field.1 = some name →
      (respell a b name ∈ known' ↔ name ∈ known)) :
    Members.ofFields known' (fields.map (renamed a b)) =
      (Members.ofFields known fields).map (Members.respelled a b) := by
  induction fields with
  | nil => rfl
  | cons field fields ih =>
    rw [List.forall_mem_cons] at alike
    have others := ih alike.2
    obtain ⟨key, v⟩ := field
    have value : renamed a b (key, v) = ((renamed a b (key, v)).1, v) := rfl
    rw [List.map_cons, value, Members.ofFields, Members.ofFields, others, decode?_renamed]
    cases named : Json.decode? key with
    | none => rfl
    | some name =>
      cases Members.ofFields known fields with
      | none => rfl
      | some ms =>
        have same : known'.contains (respell a b name) = known.contains name := by
          rw [Bool.eq_iff_iff, List.contains_iff_mem, List.contains_iff_mem]
          exact alike.1 name named
        simp only [Option.map_some, same]
        split_ifs <;> rfl

theorem name_mem_of_ofFields {known : List String} {fields : List (List UInt8 × Raw)} {ms : Members}
    (h : Members.ofFields known fields = some ms) : ∀ m ∈ ms, m.1 ∈ known := by
  induction fields generalizing ms with
  | nil =>
    obtain rfl : [] = ms := Option.some.inj h
    exact fun m hm => absurd hm List.not_mem_nil
  | cons field fields ih =>
    obtain ⟨key, v⟩ := field
    rw [Members.ofFields] at h
    split at h
    · rename_i name others _ rest
      split_ifs at h with here passable
      · obtain rfl : (name, v) :: others = ms := Option.some.inj h
        exact List.forall_mem_cons.mpr ⟨List.contains_iff_mem.mp here, ih rest⟩
      · obtain rfl : others = ms := Option.some.inj h
        exact ih rest
    · cases h

theorem Members.get_respelled (read : Raw → Option α) {a b name : String} {ms : Members}
    (faithful : ∀ m ∈ ms, respell a b m.1 = respell a b name ↔ m.1 = name) :
    (ms.respelled a b).get read (respell a b name) = ms.get read name := by
  induction ms with
  | nil => rfl
  | cons m ms ih =>
    rw [List.forall_mem_cons] at faithful
    have others := ih faithful.2
    obtain ⟨n, v⟩ := m
    rw [Members.respelled] at others ⊢
    rw [List.map_cons]
    by_cases isNull : v = .null
    · rw [isNull, Members.get_null, Members.get_null, others]
    · rw [Members.get_cons _ _ _ isNull, Members.get_cons _ name n isNull, others]
      simp only [faithful.1]

theorem Members.get_absent (read : Raw → Option α) {name : String} {ms : Members}
    (absent : ∀ m ∈ ms, m.1 ≠ name) : ms.get read name = some none := by
  induction ms with
  | nil => rfl
  | cons m ms ih =>
    rw [List.forall_mem_cons] at absent
    obtain ⟨n, v⟩ := m
    by_cases isNull : v = .null
    · rw [isNull, Members.get_null, ih absent.2]
    · rw [Members.get_cons _ name n isNull, if_neg absent.1, ih absent.2]

section

variable {ms : Members} (names : ∀ m ∈ ms, m.1 ∈ userMembers "Attributes")

include names

theorem get_known_respelled (read : Raw → Option α) {name : String} (known : name ∈ userMembers "Attributes") :
    (ms.respelled "Attributes" "UserAttributes").get read (respell "Attributes" "UserAttributes" name) =
      ms.get read name := by
  have apart : ∀ name ∈ userMembers "Attributes", ∀ n ∈ userMembers "Attributes",
      respell "Attributes" "UserAttributes" n = respell "Attributes" "UserAttributes" name ↔ n = name := by decide
  exact Members.get_respelled read fun m hm => apart name known m.1 (names m hm)

theorem get_attributes_respelled (read : Raw → Option α) :
    (ms.respelled "Attributes" "UserAttributes").get read "UserAttributes" = ms.get read "Attributes" := by
  have known : "Attributes" ∈ userMembers "Attributes" := by decide
  exact get_known_respelled names read known

theorem get_other_respelled (read : Raw → Option α) (name : String) (known : name ∈ userMembers "Attributes")
    (other : name ≠ "Attributes") :
    (ms.respelled "Attributes" "UserAttributes").get read name = ms.get read name := by
  have found := get_known_respelled names read known
  rwa [respell, if_neg other] at found

theorem get_single_respelled (read : Raw → Option α) {name : String} (single : name ∈ singleMembers) :
    (ms.respelled "Attributes" "UserAttributes").get read name = some none := by
  have apart : ∀ name ∈ singleMembers, ∀ n ∈ userMembers "Attributes",
      respell "Attributes" "UserAttributes" n ≠ name := by decide
  refine Members.get_absent read ?_
  intro m hm
  obtain ⟨old, hold, rfl⟩ := List.mem_map.mp hm
  exact apart name single old.1 (names old hold)

theorem readProfile_respelled :
    readProfile "UserAttributes" (ms.respelled "Attributes" "UserAttributes") = readProfile "Attributes" ms := by
  rw [readProfile, readProfile, get_attributes_respelled names]
  rw [get_other_respelled names readText "Username" (by decide) (by decide)]
  rw [get_other_respelled names readTime "UserCreateDate" (by decide) (by decide)]
  rw [get_other_respelled names readTime "UserLastModifiedDate" (by decide) (by decide)]
  rw [get_other_respelled names readFlag "Enabled" (by decide) (by decide)]
  rw [get_other_respelled names readText "UserStatus" (by decide) (by decide)]
  rw [get_other_respelled names (readItems readDelivery) "MFAOptions" (by decide) (by decide)]

end

/-- The document of a single user says what an item of a page says, if only the attributes are called otherwise. -/
theorem singleProfile?_renamed {fields : List (List UInt8 × Raw)}
    (unused : ∀ field ∈ fields, ∀ name ∈ "UserAttributes" :: singleMembers, Json.decode? field.1 ≠ some name) :
    singleProfile? (.record (fields.map (renamed "Attributes" "UserAttributes"))) =
      listedProfile? (.record fields) := by
  have members : Members.ofRaw? (userMembers "UserAttributes" ++ singleMembers)
      (.record (fields.map (renamed "Attributes" "UserAttributes"))) =
        (Members.ofRaw? (userMembers "Attributes") (.record fields)).map
          (Members.respelled "Attributes" "UserAttributes") := by
    refine ofFields_renamed ?_
    intro field hfield name named
    have fresh : name ∉ "UserAttributes" :: singleMembers := fun mem => unused field hfield name mem named
    by_cases here : name = "Attributes"
    · subst here
      decide
    · rw [respell, if_neg here]
      simp only [singleMembers, List.mem_cons, List.not_mem_nil, or_false, not_or] at fresh
      simp [userMembers, singleMembers, here, fresh]
  rw [singleProfile?, listedProfile?, members]
  cases known : Members.ofRaw? (userMembers "Attributes") (.record fields) with
  | none => rfl
  | some ms =>
    have names := name_mem_of_ofFields known
    simp only [Option.map_some, Option.bind_eq_bind, Option.bind_some]
    rw [readProfile_respelled names, get_single_respelled names readText (by decide),
      get_single_respelled names (readItems readText) (by decide)]
    cases readProfile "Attributes" ms <;> rfl

/-! ### Calls -/

/-- The document of an answer that is a success. -/
def document? (answer : Option Answer) : Option Raw := do
  let a ← answer.bind Answer.received?
  if a.isSuccess then readBody a.body else none

theorem readAnswer_toOption (operation : Operation) (read : Raw → Option α) (answer : Option Answer) :
    (readAnswer operation read answer).toOption = (document? answer).bind read := by
  rw [readAnswer, document?]
  cases answer.bind Answer.received? with
  | none => rfl
  | some a =>
    simp only [Option.bind_eq_bind, Option.bind_some]
    cases a.isSuccess with
    | false => rfl
    | true =>
      simp only [↓reduceIte]
      cases (readBody a.body).bind read <;> rfl

/-- What a call brings is made of what is read from its answer. -/
theorem call_toOption {read : Raw → Option β} {parts : Raw → Option α} {make : α → β}
    (made : ∀ v, read v = (parts v).map make) (request : Sent) (l : Line) :
    (l.call read request).1.outcome.toOption = ((document? (l.answer 0)).bind parts).map make := by
  have result : (l.call read request).1.outcome.toOption =
      (readAnswer request.operation read (l.answer 0)).toOption := by
    rw [Line.call, Line.exchange, ← l.answer_zero]
    cases readAnswer request.operation read (l.answer 0) <;> rfl
  rw [result, readAnswer_toOption, Option.map_bind]
  exact congrArg _ (funext made)

/-- A user is made of its data alone, on every way in: alone or in a page, and whatever its attributes are called there. Of
the entries of a name the last one with a value counts, and if no two have one name their order does not. -/
theorem users_mean_the_same_everywhere :
    (∀ (pageSize : Int) (l : Line),
      (∀ pool username, ((service pageSize).user pool username l).1.outcome.toOption =
        ((document? (l.answer 0)).bind singleProfile?).map Profile.user) ∧
      (∀ q, ((service pageSize).users q l).1.outcome.toOption =
        ((document? (l.answer 0)).bind (profiles? .listUsers)).map pageOf) ∧
      (∀ q, ((service pageSize).members q l).1.outcome.toOption =
        ((document? (l.answer 0)).bind (profiles? .listMembers)).map pageOf)) ∧
    (∀ fields : List (List UInt8 × Raw),
      (∀ field ∈ fields, ∀ name ∈ "UserAttributes" :: singleMembers, Json.decode? field.1 ≠ some name) →
      singleProfile? (.record (fields.map (renamed "Attributes" "UserAttributes"))) =
          listedProfile? (.record fields) ∧
        readSingleUser (.record (fields.map (renamed "Attributes" "UserAttributes"))) =
          readListedUser (.record fields)) ∧
    ∀ p : Profile,
      p.user.attributes.Sorted ∧
      p.user.email = p.user.attributes.get? "email" ∧
      (∀ name, (p.user.attributes.get? name).isSome ↔ ∃ value, (name, some value) ∈ p.attributes) ∧
      (∀ name value before after, p.attributes = before ++ (name, some value) :: after →
        (∀ later, (name, some later) ∉ after) → p.user.attributes.get? name = some value) ∧
      ∀ entries, entries.Perm p.attributes → (p.attributes.map Prod.fst).Nodup →
        { p with attributes := entries }.user = p.user := by
  refine ⟨?_, ?_, ?_⟩
  · intro pageSize l
    exact ⟨fun pool username => call_toOption readSingleUser_eq _ l,
      fun q => call_toOption (readUsers_eq .listUsers) _ l, fun q => call_toOption (readUsers_eq .listMembers) _ l⟩
  · intro fields unused
    have same := singleProfile?_renamed unused
    exact ⟨same, by rw [readSingleUser_eq, same, readListedUser_eq]⟩
  · intro p
    refine ⟨Attributes.sorted_ofList _, rfl, fun name => get?_ofList_valued_isSome_iff, ?_, ?_⟩
    · intro name value before after entries last
      rw [Profile.user, entries]
      exact get?_ofList_valued_of_last last
    · intro entries perm distinct
      rw [Profile.user, Profile.user, buildUser, ofList_valued_perm perm distinct, buildUser]

/-- A user whose address is given twice and then without a value, and who has a team without a value. -/
def annText (attributesName : String) : String :=
  "\x7b\"Username\":\"ann\",\"" ++ attributesName ++ "\":[" ++
    "\x7b\"Name\":\"email\",\"Value\":\"old\"\x7d,\x7b\"Name\":\"team\"\x7d," ++
    "\x7b\"Name\":\"email\",\"Value\":\"new\"\x7d,\x7b\"Name\":\"email\",\"Value\":null\x7d],\"Enabled\":true\x7d"

def annAlone : Line :=
  ⟨[some ⟨200, [], Bytes.ofText (annText "UserAttributes")⟩], [], fun _ _ => "service error"⟩

def annInPage : Line :=
  ⟨[some ⟨200, [], Bytes.ofText ("\x7b\"Users\":[" ++ annText "Attributes" ++ "]\x7d")⟩], [],
    fun _ _ => "service error"⟩

def annProfile : Profile where
  username := some "ann"
  attributes := [("email", some "old"), ("team", none), ("email", some "new"), ("email", none)]
  enabled := some true
  status := none
  created := none

/-- The fields of an item of a page. -/
def annItem : List (List UInt8 × Raw) :=
  [(Json.encode "Username", .text (Json.encode "ann")), (Json.encode "Attributes", .list [])]

def bobProfile : Profile :=
  ⟨some "bob", [("name", some "Bob"), ("email", some ""), ("custom:team", none)], none, none, none⟩

theorem ann_means_the_same :
    ((service 60).user "pool" "ann" annAlone).1.outcome.toOption = some annProfile.user ∧
      ((service 60).users ⟨"pool", none, none⟩ annInPage).1.outcome.toOption =
        some (.ofItems [annProfile.user] none) ∧
      ((service 60).members ⟨"pool", some "staff", none⟩ annInPage).1.outcome.toOption =
        some (.ofItems [annProfile.user] none) ∧
      readSingleUser (.record (annItem.map (renamed "Attributes" "UserAttributes"))) =
        readListedUser (.record annItem) ∧
      annProfile.user.email = some "new" ∧ annProfile.user.attributes.get? "team" = none ∧
      { bobProfile with attributes := bobProfile.attributes.reverse }.user = bobProfile.user := by
  obtain ⟨ways, respelling, profiles⟩ := users_mean_the_same_everywhere
  obtain ⟨-, hemail, hheld, hlast, -⟩ := profiles annProfile
  have alone : (document? (annAlone.answer 0)).bind singleProfile? = some annProfile := by decide +kernel
  have listed : ∀ operation ∈ [Operation.listUsers, .listMembers],
      (document? (annInPage.answer 0)).bind (profiles? operation) = some ([annProfile], none) := by
    decide +kernel
  refine ⟨?_, ?_, ?_, (respelling annItem (by decide +kernel)).2, ?_, ?_, ?_⟩
  · rw [(ways 60 annAlone).1, alone]
    rfl
  · rw [(ways 60 annInPage).2.1, listed _ (by decide)]
    rfl
  · rw [(ways 60 annInPage).2.2, listed _ (by decide)]
    rfl
  · rw [hemail]
    exact hlast "email" "new" [("email", some "old"), ("team", none)] [("email", none)] rfl (by simp)
  · have held := hheld "team"
    simpa [annProfile] using held
  · exact (profiles bobProfile).2.2.2.2 _ (List.reverse_perm _) (by decide)

end DirectoryGateway.Remote
