import DirectoryGateway.Proofs.Telemetry.Tally
import DirectoryGateway.Proofs.Text.Splitting
import DirectoryGateway.Telemetry.Exposition
import DirectoryGateway.Text.Target

/-!
# What a text of metrics shows

The lines of a text that belong to some families of counters are told by their beginning, up to the brace. They are the samples of
these families, whatever else the text holds; and since the lines are sorted, they depend on the samples alone.
-/

namespace DirectoryGateway.Telemetry

/-! ### Sorted lines -/

theorem pairwise_sortLines (lines : List String) : (sortLines lines).Pairwise fun a b => a ≤ b := by
  have hsorted : (sortLines lines).Pairwise fun a b => decide (a ≤ b) = true := by
    apply List.pairwise_mergeSort
    · intro a b c hab hbc
      rw [decide_eq_true_eq] at *
      exact String.le_trans hab hbc
    · intro a b
      rw [Bool.or_eq_true, decide_eq_true_eq, decide_eq_true_eq]
      exact String.le_total a b
  simpa using hsorted

theorem perm_sortLines (lines : List String) : (sortLines lines).Perm lines :=
  List.mergeSort_perm lines _

theorem eq_of_sorted {xs ys : List String} (hxs : xs.Pairwise fun a b => a ≤ b)
    (hys : ys.Pairwise fun a b => a ≤ b) (h : xs.Perm ys) : xs = ys :=
  List.Perm.eq_of_pairwise (fun _ _ _ _ hab hba => String.le_antisymm hab hba) hxs hys h

/-- Sorted lines do not depend on the order in which they came. -/
theorem sortLines_eq_of_perm {xs ys : List String} (h : xs.Perm ys) : sortLines xs = sortLines ys := by
  apply eq_of_sorted (pairwise_sortLines xs) (pairwise_sortLines ys)
  exact (perm_sortLines xs).trans (h.trans (perm_sortLines ys).symm)

theorem filter_sortLines (p : String → Bool) (lines : List String) :
    (sortLines lines).filter p = sortLines (lines.filter p) := by
  apply eq_of_sorted ((pairwise_sortLines lines).filter p) (pairwise_sortLines _)
  exact ((perm_sortLines lines).filter p).trans (perm_sortLines _).symm

/-! ### Families -/

def counterFamilies : List String :=
  ["gw_http_requests_total", "gw_provider_calls_total", "gw_listing_pages_total",
    "gw_listing_throttle_retries_total", "gw_jwks_fetch_total"]

theorem Counter.family_mem (c : Counter) : c.family ∈ counterFamilies := by
  cases c <;> simp [Counter.family, counterFamilies]

theorem braceless_of_mem {family : String} (h : family ∈ counterFamilies) : '\x7b' ∉ family.toList := by
  have hall : ∀ family ∈ counterFamilies, '\x7b' ∉ family.toList := by decide
  exact hall family h

/-- The beginning of all lines of a family. -/
def opening (family : String) : List Char :=
  family.toList ++ ['\x7b']

/-- The lines of a text that belong to some families. -/
def shown (families lines : List String) : List String :=
  lines.filter fun line => families.any fun family => (opening family).isPrefixOf line.toList

theorem sampleLine_toList (name : String) (labels : List Label) (value : String) :
    ∃ rest, (sampleLine name labels value).toList = name.toList ++ '\x7b' :: rest := by
  refine ⟨(String.intercalate "," (labels.map Label.text)).toList ++ '\x7d' :: ' ' :: value.toList, ?_⟩
  simp [sampleLine, labelsText]

theorem opening_isPrefixOf_iff {family name : String} {rest : List Char}
    (hfamily : '\x7b' ∉ family.toList) (hname : '\x7b' ∉ name.toList) :
    (opening family).isPrefixOf (name.toList ++ '\x7b' :: rest) = true ↔ family = name := by
  rw [List.isPrefixOf_iff_prefix, opening]
  constructor
  · rintro ⟨more, hmore⟩
    rw [List.append_assoc, List.singleton_append] at hmore
    have hfamily' : family.toList = name.toList :=
      (Text.eq_of_append_sep hfamily hname hmore).1
    exact String.toList_inj.mp hfamily'
  · rintro rfl
    refine ⟨rest, ?_⟩
    rw [List.append_assoc, List.singleton_append]

theorem opening_unique {f f' : String} (hf : f ∈ counterFamilies) (hf' : f' ∈ counterFamilies) {line : List Char}
    (h : (opening f).isPrefixOf line = true) (h' : (opening f').isPrefixOf line = true) : f = f' := by
  obtain ⟨rest, rfl⟩ := List.isPrefixOf_iff_prefix.mp h'
  have hopens : opening f' ++ rest = f'.toList ++ '\x7b' :: rest := by
    rw [opening, List.append_assoc, List.singleton_append]
  rw [hopens] at h
  exact (opening_isPrefixOf_iff (braceless_of_mem hf) (braceless_of_mem hf')).mp h

theorem perm_filter_or {α : Type} {p q : α → Bool} (apart : ∀ x, p x = true → q x = false) (xs : List α) :
    (xs.filter fun x => p x || q x).Perm (xs.filter p ++ xs.filter q) := by
  induction xs with
  | nil => exact List.Perm.refl _
  | cons x xs ih =>
    simp only [List.filter_cons]
    cases hp : p x with
    | true =>
      rw [apart x hp]
      exact ih.cons x
    | false =>
      cases hq : q x with
      | true => exact (ih.cons x).trans List.perm_middle.symm
      | false => exact ih

/-- The lines of several families are those of one of them, and those of the others. -/
theorem perm_shown_cons {f : String} {families : List String} (known : ∀ f' ∈ f :: families, f' ∈ counterFamilies)
    (other : f ∉ families) (lines : List String) :
    (shown (f :: families) lines).Perm (shown [f] lines ++ shown families lines) := by
  have happart : ∀ line : String, (opening f).isPrefixOf line.toList = true →
      (families.any fun f' => (opening f').isPrefixOf line.toList) = false := by
    intro line hopen
    rw [Bool.eq_false_iff, ne_eq, List.any_eq_true]
    rintro ⟨f', hf', hopen'⟩
    have hsame := opening_unique (known f List.mem_cons_self) (known f' (List.mem_cons_of_mem _ hf')) hopen hopen'
    rw [hsame] at other
    exact other hf'
  have hperm := perm_filter_or happart lines
  simpa only [shown, List.any_cons, List.any_nil, Bool.or_false] using hperm

/-! ### Series -/

theorem labelsText_toList (labels : List Label) : ∃ rest, (labelsText labels).toList = '\x7b' :: rest := by
  refine ⟨(String.intercalate "," (labels.map Label.text)).toList ++ ['\x7d'], ?_⟩
  simp [labelsText]

/-- The name of a series is what comes before its labels. -/
theorem name_of_labelled {name name' : String} {labels labels' : List Label} (braceless : '\x7b' ∉ name.toList)
    (braceless' : '\x7b' ∉ name'.toList) (h : name ++ labelsText labels = name' ++ labelsText labels') :
    name = name' := by
  obtain ⟨rest, hrest⟩ := labelsText_toList labels
  obtain ⟨rest', hrest'⟩ := labelsText_toList labels'
  have htext := congrArg String.toList h
  rw [String.toList_append, String.toList_append, hrest, hrest'] at htext
  exact String.toList_inj.mp (Text.eq_of_append_sep braceless braceless' htext).1

theorem Counter.family_of_series {c d : Counter} (h : c.series = d.series) : c.family = d.family :=
  name_of_labelled (braceless_of_mem c.family_mem) (braceless_of_mem d.family_mem) h

theorem joinCounter_fresh {c : Counter × Nat} {cs : List (Counter × Nat)}
    (fresh : ∀ d ∈ cs, d.1.series ≠ c.1.series) : joinCounter c cs = cs ++ [c] := by
  induction cs with
  | nil => rfl
  | cons d cs ih =>
    rw [joinCounter, if_neg (fresh d List.mem_cons_self)]
    rw [ih fun e he => fresh e (List.mem_cons_of_mem _ he)]
    rfl

theorem filter_joinCounter {p : Counter → Bool} (respects : ∀ c d, c.series = d.series → p c = p d)
    (c : Counter × Nat) (cs : List (Counter × Nat)) :
    (joinCounter c cs).filter (fun d => p d.1) =
      if p c.1 then joinCounter c (cs.filter fun d => p d.1) else cs.filter fun d => p d.1 := by
  induction cs with
  | nil => cases hc : p c.1 <;> simp [joinCounter, hc]
  | cons d cs ih =>
    rw [joinCounter]
    by_cases same : d.1.series = c.1.series
    -- Counters of one series are joined, and the filter takes both of them or neither.
    · have hp : p d.1 = p c.1 := respects _ _ same
      rw [if_pos same]
      cases hc : p c.1 with
      | true => simp [joinCounter, hp, hc, same]
      | false => simp [hp, hc]
    · rw [if_neg same, List.filter_cons, ih, List.filter_cons]
      cases hd : p d.1 with
      | true => cases hc : p c.1 <;> simp [joinCounter, same]
      | false => simp

/-- Counters in which every series occurs once. -/
def joinAll (cs : List (Counter × Nat)) : List (Counter × Nat) :=
  cs.foldl (fun joined c => joinCounter c joined) []

theorem joinAll_concat (cs : List (Counter × Nat)) (c : Counter × Nat) :
    joinAll (cs ++ [c]) = joinCounter c (joinAll cs) := by
  rw [joinAll, List.foldl_append]
  rfl

theorem filter_joinAll {p : Counter → Bool} (respects : ∀ c d, c.series = d.series → p c = p d)
    (cs : List (Counter × Nat)) :
    (joinAll cs).filter (fun d => p d.1) = joinAll (cs.filter fun d => p d.1) := by
  induction cs using List.reverseRecOn with
  | nil => rfl
  | append_singleton cs c ih =>
    rw [joinAll_concat, filter_joinCounter respects, ih, List.filter_append]
    cases hc : p c.1 with
    | true => simp [hc, joinAll_concat]
    | false => simp [hc]

theorem joinAll_of_distinct {cs : List (Counter × Nat)}
    (distinct : cs.Pairwise fun c d => c.1.series ≠ d.1.series) : joinAll cs = cs := by
  induction cs using List.reverseRecOn with
  | nil => rfl
  | append_singleton cs c ih =>
    obtain ⟨hcs, -, hc⟩ := List.pairwise_append.mp distinct
    rw [joinAll_concat, ih hcs]
    exact joinCounter_fresh fun d hd => hc d hd c (List.mem_singleton_self c)

/-! ### Lines -/

theorem opens_counterLine {families : List String} (known : ∀ f ∈ families, f ∈ counterFamilies)
    (c : Counter) (n : Nat) :
    (families.any fun f => (opening f).isPrefixOf (counterLine c n).toList) = families.contains c.family := by
  obtain ⟨rest, hrest⟩ := sampleLine_toList c.family c.labels (toString n)
  rw [Bool.eq_iff_iff, List.any_eq_true, counterLine, hrest, List.contains_iff_mem]
  have hopens : ∀ f ∈ families,
      ((opening f).isPrefixOf (c.family.toList ++ '\x7b' :: rest) = true ↔ f = c.family) :=
    fun f hf => opening_isPrefixOf_iff (braceless_of_mem (known f hf)) (braceless_of_mem c.family_mem)
  constructor
  · rintro ⟨f, hf, hopen⟩
    rw [← (hopens f hf).mp hopen]
    exact hf
  · intro hc
    exact ⟨c.family, hc, (hopens _ hc).mpr rfl⟩

/-- The names that the samples of a timer go by. -/
def timerNames (family : String) : List String :=
  [family ++ "_bucket", family ++ "_sum", family ++ "_count"]

theorem Timer.names_spec (t : Timer) :
    ∀ name ∈ timerNames t.family, '\x7b' ∉ name.toList ∧ name ∉ counterFamilies := by
  have hall : ∀ family ∈ ["gw_http_request_duration_seconds", "gw_provider_call_duration_seconds"],
      ∀ name ∈ timerNames family, '\x7b' ∉ name.toList ∧ name ∉ counterFamilies := by decide
  exact hall t.family (by cases t <;> simp [Timer.family])

theorem mem_timerLines {t : Timer} {h : Histogram} {line : String} (hline : line ∈ timerLines t h) :
    ∃ name ∈ timerNames t.family, ∃ labels value, line = sampleLine name labels value := by
  rcases List.mem_append.mp hline with hbucket | hrest
  · rw [← List.map_uncurry_zip_eq_zipWith] at hbucket
    obtain ⟨⟨bound, n⟩, -, rfl⟩ := List.mem_map.mp hbucket
    exact ⟨_, by simp [timerNames], _, _, rfl⟩
  · simp only [List.mem_cons, List.not_mem_nil, or_false] at hrest
    rcases hrest with rfl | rfl | rfl
    · exact ⟨_, by simp [timerNames], _, _, rfl⟩
    · exact ⟨_, by simp [timerNames], _, _, rfl⟩
    · exact ⟨_, by simp [timerNames], _, _, rfl⟩

theorem closed_timerLine {f : String} (known : f ∈ counterFamilies) {t : Timer} {h : Histogram}
    {line : String} (hline : line ∈ timerLines t h) : (opening f).isPrefixOf line.toList = false := by
  obtain ⟨name, hname, labels, value, rfl⟩ := mem_timerLines hline
  obtain ⟨rest, hrest⟩ := sampleLine_toList name labels value
  obtain ⟨braceless, other⟩ := t.names_spec name hname
  rw [hrest, Bool.eq_false_iff, ne_eq, opening_isPrefixOf_iff (braceless_of_mem known) braceless]
  rintro rfl
  exact other known

theorem closed_typeLine {f : String} (known : f ∈ counterFamilies) (family kind : String) :
    (opening f).isPrefixOf (typeLine family kind).toList = false := by
  have hhead : ∀ f ∈ counterFamilies, (opening f).head? = some 'g' := by decide
  obtain ⟨rest, hrest⟩ : ∃ rest, opening f = 'g' :: rest :=
    ⟨_, List.eq_cons_of_mem_head? (hhead f known)⟩
  simp only [hrest, typeLine, String.toList_append]
  rfl

section

variable {families : List String} (known : ∀ f ∈ families, f ∈ counterFamilies)

include known

theorem shown_eq_nil {lines : List String}
    (closed : ∀ line ∈ lines, ∀ f ∈ counterFamilies, (opening f).isPrefixOf line.toList = false) :
    shown families lines = [] := by
  rw [shown, List.filter_eq_nil_iff]
  intro line hline
  rw [List.any_eq_true]
  rintro ⟨f, hf, hopen⟩
  rw [closed line hline f (known f hf)] at hopen
  cases hopen

theorem shown_typeLines {α : Type} (family : α → String) (kind : String) (xs : List α) :
    shown families ((xs.map fun x => typeLine (family x) kind).eraseDups) = [] := by
  apply shown_eq_nil known
  intro line hline f hf
  rw [List.mem_eraseDups] at hline
  obtain ⟨x, -, rfl⟩ := List.mem_map.mp hline
  exact closed_typeLine hf (family x) kind

theorem shown_timerLines (timers : List (Timer × Histogram)) :
    shown families (timers.flatMap fun t => timerLines t.1 t.2) = [] := by
  apply shown_eq_nil known
  intro line hline f hf
  obtain ⟨t, -, hline⟩ := List.mem_flatMap.mp hline
  exact closed_timerLine hf hline

theorem shown_counterLines (counters : List (Counter × Nat)) :
    shown families (counters.map fun c => counterLine c.1 c.2) =
      (counters.filter fun c => families.contains c.1.family).map fun c => counterLine c.1 c.2 := by
  rw [shown, List.filter_map]
  congr 2
  funext c
  exact opens_counterLine known c.1 c.2

/-- Of the text of a ledger, the lines of some families of counters are the samples of these counters. -/
theorem Ledger.shown_lines (l : Ledger) :
    shown families l.lines =
      sortLines ((joinAll (l.counters.filter fun c => families.contains c.1.family)).map
        fun c => counterLine c.1 c.2) := by
  have respects : ∀ c d : Counter, c.series = d.series →
      families.contains c.family = families.contains d.family := by
    intro c d h
    rw [Counter.family_of_series h]
  have happend : ∀ xs ys, shown families (xs ++ ys) = shown families xs ++ shown families ys := by
    intro xs ys
    exact List.filter_append ..
  rw [← filter_joinAll respects, ← shown_counterLines known, Ledger.lines, shown, filter_sortLines]
  apply congrArg sortLines
  show shown families _ = _
  rw [happend, happend, happend, shown_timerLines known, shown_typeLines known, shown_typeLines known,
    List.nil_append, List.nil_append, List.append_nil]
  rfl

end

/-! ### Requests -/

/-- A text that is written as it is in the value of a label. -/
def Plain (s : String) : Prop :=
  ∀ c ∈ s.toList, c ≠ '\n' ∧ c ≠ '"' ∧ c ≠ '\\'

instance (s : String) : Decidable (Plain s) :=
  List.decidableBAll (fun c => c ≠ '\n' ∧ c ≠ '"' ∧ c ≠ '\\') s.toList

theorem escapeFrom_plain {cs : List Char} (plain : ∀ c ∈ cs, c ≠ '\n' ∧ c ≠ '"' ∧ c ≠ '\\') :
    escapeFrom false cs = cs := by
  induction cs with
  | nil => rfl
  | cons c cs ih =>
    obtain ⟨hline, hquote, hslash⟩ := plain c List.mem_cons_self
    rw [escapeFrom, if_neg hline, if_neg hquote, if_neg hslash, if_neg Bool.false_ne_true,
      ih fun d hd => plain d (List.mem_cons_of_mem _ hd)]

theorem Plain.text {l : Label} (h : Plain l.value) : l.text = l.name ++ "=\"" ++ l.value ++ "\"" := by
  rw [Label.text, escapeFrom_plain h, String.ofList_toList]

theorem plain_of_isToken {s : String} (h : Text.isToken s = true) : Plain s := by
  intro c hc
  rw [Text.isToken, Bool.and_eq_true] at h
  have htoken := List.all_eq_true.mp h.2 c hc
  refine ⟨?_, ?_, ?_⟩
  all_goals
    rintro rfl
    revert htoken
    decide

theorem plain_label (e : Endpoint) : Plain e.label := by
  cases e <;> decide

theorem plain_status (n : Nat) : Plain (toString n) := by
  intro c hc
  have hdigit : c.isDigit = true := by
    have hdigits : c ∈ Nat.toDigits 10 n := by
      rw [← Nat.toList_repr]
      exact hc
    exact Nat.isDigit_of_mem_toDigits (by decide) (by decide) hdigits
  refine ⟨?_, ?_, ?_⟩
  all_goals
    rintro rfl
    revert hdigit
    decide

theorem status_injective {m n : Nat} (h : (toString m).toList = (toString n).toList) : m = n := by
  have hdigits : Nat.toDigits 10 m = Nat.toDigits 10 n := by
    rw [← Nat.toList_repr, ← Nat.toList_repr]
    exact h
  rw [← Nat.ofDigitChars_ten_toDigits (n := m), hdigits, Nat.ofDigitChars_ten_toDigits]

theorem label_injective {e e' : Endpoint} (h : e.label = e'.label) : e = e' := by
  cases e <;> cases e' <;> first | rfl | (revert h; decide)

theorem request_series_toList {method : String} (plain : Plain method) (e : Endpoint) (status : Nat) :
    (Counter.requests method e status).series.toList =
      "gw_http_requests_total\x7bmethod=\"".toList ++ (method.toList ++ '"' :: (",endpoint=\"".toList ++
        (e.label.toList ++ '"' :: (",status_code=\"".toList ++ ((toString status).toList ++ '"' :: ['\x7d']))))) := by
  have hmethod : (Label.mk "method" method).text = _ := Plain.text plain
  have hendpoint : (Label.mk "endpoint" e.label).text = _ := Plain.text (plain_label e)
  have hstatus : (Label.mk "status_code" (toString status)).text = _ := Plain.text (plain_status status)
  simp [-Nat.toString_eq_repr, Counter.series, Counter.family, Counter.labels, labelsText, hmethod, hendpoint, hstatus]

theorem request_of_series {method method' : String} {e e' : Endpoint} {status status' : Nat}
    (plain : Plain method) (plain' : Plain method')
    (h : (Counter.requests method e status).series = (Counter.requests method' e' status').series) :
    Counter.requests method e status = .requests method' e' status' := by
  have hquote : ∀ {s : String}, Plain s → '"' ∉ s.toList := fun hs hmem => (hs _ hmem).2.1 rfl
  have htext := congrArg String.toList h
  rw [request_series_toList plain, request_series_toList plain', List.append_cancel_left_eq] at htext
  obtain ⟨hmethod, htext⟩ := Text.eq_of_append_sep (hquote plain) (hquote plain') htext
  rw [List.append_cancel_left_eq] at htext
  obtain ⟨hlabel, htext⟩ := Text.eq_of_append_sep (hquote (plain_label e)) (hquote (plain_label e')) htext
  rw [List.append_cancel_left_eq] at htext
  obtain ⟨hstatus, -⟩ := Text.eq_of_append_sep (hquote (plain_status _)) (hquote (plain_status _)) htext
  rw [String.toList_inj.mp hmethod, label_injective (String.toList_inj.mp hlabel),
    status_injective hstatus]

def Counter.isRequest : Counter → Bool
  | .requests .. => true
  | _ => false

theorem Counter.eq_requests {c : Counter} (h : c.isRequest = true) :
    ∃ method e status, c = .requests method e status := by
  cases c with
  | requests method e status => exact ⟨method, e, status, rfl⟩
  | _ => cases h

def requestFamily : String :=
  "gw_http_requests_total"

theorem contains_requestFamily (c : Counter) : [requestFamily].contains c.family = c.isRequest := by
  cases c <;> simp [Counter.family, Counter.isRequest, requestFamily]

def otherFamilies : List String :=
  counterFamilies.tail

/-- The lines of all counters are told by those of requests and by the others. -/
theorem shown_counters_eq {l l' : Ledger} (requests : shown [requestFamily] l.lines = shown [requestFamily] l'.lines)
    (others : shown otherFamilies l.lines = shown otherFamilies l'.lines) :
    shown counterFamilies l.lines = shown counterFamilies l'.lines := by
  have hsplit : ∀ l : Ledger,
      (shown counterFamilies l.lines).Perm (shown [requestFamily] l.lines ++ shown otherFamilies l.lines) :=
    fun l => perm_shown_cons (fun f hf => hf) (by decide) l.lines
  have hsorted : ∀ l : Ledger, (shown counterFamilies l.lines).Pairwise fun a b => a ≤ b :=
    fun l => (pairwise_sortLines _).filter _
  apply eq_of_sorted (hsorted l) (hsorted l')
  have hl := hsplit l
  rw [requests, others] at hl
  exact hl.trans (hsplit l').symm

/-- Requests by plain methods are counted in series of their own. -/
theorem shown_requests {l : Ledger} (distinct : (l.counters.map Prod.fst).Nodup)
    (plain : ∀ method e status, .requests method e status ∈ l.counters.map Prod.fst → Plain method) :
    shown [requestFamily] l.lines =
      sortLines ((l.counters.filter fun c => c.1.isRequest).map fun c => counterLine c.1 c.2) := by
  have known : ∀ f ∈ [requestFamily], f ∈ counterFamilies := by decide
  rw [Ledger.shown_lines known]
  simp only [contains_requestFamily]
  rw [joinAll_of_distinct]
  have hpairwise : (l.counters.filter fun c => c.1.isRequest).Pairwise fun c d => c.1 ≠ d.1 :=
    (List.pairwise_map.mp distinct).filter _
  refine hpairwise.imp_of_mem ?_
  intro c d hc hd hne hseries
  apply hne
  obtain ⟨hc, hcRequest⟩ := List.mem_filter.mp hc
  obtain ⟨hd, hdRequest⟩ := List.mem_filter.mp hd
  have hcKey : c.1 ∈ l.counters.map Prod.fst := List.mem_map_of_mem hc
  have hdKey : d.1 ∈ l.counters.map Prod.fst := List.mem_map_of_mem hd
  obtain ⟨method, e, status, hcEq⟩ := Counter.eq_requests hcRequest
  obtain ⟨method', e', status', hdEq⟩ := Counter.eq_requests hdRequest
  rw [hcEq, hdEq] at hseries ⊢
  rw [hcEq] at hcKey
  rw [hdEq] at hdKey
  exact request_of_series (plain _ _ _ hcKey) (plain _ _ _ hdKey) hseries

end DirectoryGateway.Telemetry
