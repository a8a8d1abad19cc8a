import DirectoryGateway.Pem
import DirectoryGateway.Proofs.Encoding.Base64

/-!
# PEM text can be read back

The text of a key is cut into the lines that it was made of, since none of them holds a newline, and the body lines together
are the bytes in base64, wherever they were cut. All of them but the last are full, and the last is never empty.
-/

namespace DirectoryGateway.Pem

/-! ### Lines -/

theorem lines_append_newline {line : List UInt8} (h : newline ∉ line) (rest : List UInt8) :
    lines (line ++ newline :: rest) = line :: lines rest := by
  induction line with
  | nil => rw [List.nil_append, lines, if_pos rfl]
  | cons b line ih =>
    have hb : b ≠ newline := fun he => h (by simp [he])
    have hline : newline ∉ line := fun hmem => h (List.mem_cons_of_mem _ hmem)
    rw [List.cons_append, lines, if_neg hb, ih hline]

theorem lines_flatMap {ls : List (List UInt8)} (h : ∀ line ∈ ls, newline ∉ line) :
    lines (ls.flatMap (· ++ [newline])) = ls := by
  induction ls with
  | nil => rfl
  | cons line ls ih =>
    have hline := h line List.mem_cons_self
    have hls := ih fun l hl => h l (List.mem_cons_of_mem _ hl)
    rw [List.flatMap_cons, List.append_assoc, List.singleton_append, lines_append_newline hline, hls]

/-! ### Chunks -/

theorem flatten_chunksWithin {size fuel : Nat} {bytes : List UInt8} (positive : 0 < size)
    (enough : bytes.length ≤ fuel) : (chunksWithin size fuel bytes).flatten = bytes := by
  induction fuel generalizing bytes with
  | zero =>
    have hempty : bytes = [] := List.length_eq_zero_iff.mp (by omega)
    rw [hempty]
    rfl
  | succ fuel ih =>
    cases bytes with
    | nil => rfl
    | cons b bytes =>
      have hrest : ((b :: bytes).drop size).length ≤ fuel := by
        rw [List.length_drop]
        rw [List.length_cons] at enough ⊢
        omega
      rw [chunksWithin, List.flatten_cons, ih hrest, List.take_append_drop]
      simp

theorem chunksWithin_succ {bytes : List UInt8} (some : bytes ≠ []) (size fuel : Nat) :
    chunksWithin size (fuel + 1) bytes = bytes.take size :: chunksWithin size fuel (bytes.drop size) := by
  cases bytes with
  | nil => exact absurd rfl some
  | cons b bytes => rfl

theorem chunksWithin_eq_nil_iff {size fuel : Nat} {bytes : List UInt8} (enough : bytes.length ≤ fuel) :
    chunksWithin size fuel bytes = [] ↔ bytes = [] := by
  cases bytes with
  | nil => cases fuel <;> simp [chunksWithin]
  | cons b bytes =>
    cases fuel with
    | zero => simp at enough
    | succ fuel => simp [chunksWithin]

/-- Pieces of one size, but for the last, which may be shorter and is not empty. -/
def Filled (size : Nat) (chunks : List (List UInt8)) : Prop :=
  (∀ chunk ∈ chunks.dropLast, chunk.length = size) ∧
    ∀ chunk ∈ chunks.getLast?, 0 < chunk.length ∧ chunk.length ≤ size

theorem filled_chunksWithin {size fuel : Nat} {bytes : List UInt8} (positive : 0 < size)
    (enough : bytes.length ≤ fuel) : Filled size (chunksWithin size fuel bytes) := by
  induction fuel generalizing bytes with
  | zero =>
    rw [(chunksWithin_eq_nil_iff enough).mpr (List.length_eq_zero_iff.mp (by omega))]
    exact ⟨by simp, by simp⟩
  | succ fuel ih =>
    by_cases hempty : bytes = []
    · rw [(chunksWithin_eq_nil_iff enough).mpr hempty]
      exact ⟨by simp, by simp⟩
    · have hpos : 0 < bytes.length := List.length_pos_iff.mpr hempty
      have hfirst : (bytes.take size).length = min size bytes.length := List.length_take
      have hrest : (bytes.drop size).length ≤ fuel := by
        rw [List.length_drop]
        omega
      rw [chunksWithin_succ hempty]
      by_cases hend : bytes.drop size = []
      · -- The first piece is the last one, and may be shorter.
        rw [(chunksWithin_eq_nil_iff hrest).mpr hend]
        refine ⟨by simp, ?_⟩
        intro chunk hchunk
        rw [List.getLast?_singleton, Option.mem_some_iff] at hchunk
        rw [← hchunk]
        omega
      · have hmore : chunksWithin size fuel (bytes.drop size) ≠ [] := mt (chunksWithin_eq_nil_iff hrest).mp hend
        have hlong : size < bytes.length := by simpa using hend
        obtain ⟨hfull, hlast⟩ := ih hrest
        refine ⟨?_, ?_⟩
        · rw [List.dropLast_cons_of_ne_nil hmore, List.forall_mem_cons]
          exact ⟨by omega, hfull⟩
        · rw [List.getLast?_cons_of_ne_nil hmore]
          exact hlast

theorem flatten_bodyLines (der : List UInt8) :
    (bodyLines der).flatten = Base64.standard.encode true der :=
  flatten_chunksWithin (by decide) (Nat.le_refl _)

/-- A character of base64 text: one that has a value, or the one that fills up the last group. -/
def IsBase64 (b : UInt8) : Prop :=
  (Base64.standard.value b).isSome ∨ b = Base64.pad

theorem isBase64_of_mem_bodyLines {der line : List UInt8} (h : line ∈ bodyLines der) :
    ∀ b ∈ line, IsBase64 b := by
  intro b hb
  have hbody : b ∈ Base64.standard.encode true der := by
    rw [← flatten_bodyLines]
    exact List.mem_flatten.mpr ⟨line, h, hb⟩
  refine Base64.forall_encode ?_ (fun _ => Or.inr rfl) der b hbody
  intro v hv
  exact Or.inl (by rw [Base64.standard_lawful.value_symbol v hv]; rfl)

theorem newline_not_mem_bodyLines {der line : List UInt8} (h : line ∈ bodyLines der) :
    newline ∉ line := by
  intro hmem
  rcases isBase64_of_mem_bodyLines h newline hmem with hvalue | hpad
  · exact absurd hvalue (by decide)
  · exact absurd hpad (by decide)

/-! ### Texts -/

theorem lines_ofPublicKey (der : List UInt8) :
    lines (ofPublicKey der) = opening :: (bodyLines der ++ [closing]) := by
  have hopening : newline ∉ opening := by decide +kernel
  have hclosing : newline ∉ closing := by decide +kernel
  apply lines_flatMap
  intro line hline
  simp only [List.cons_append, List.nil_append, List.mem_cons, List.mem_append, List.not_mem_nil,
    or_false] at hline
  rcases hline with rfl | hbody | rfl
  · exact hopening
  · exact newline_not_mem_bodyLines hbody
  · exact hclosing

theorem toPublicKey?_ofPublicKey (der : List UInt8) : toPublicKey? (ofPublicKey der) = some der := by
  have hlast : (bodyLines der ++ [closing]).getLast? = some closing := List.getLast?_concat
  have hbody : (bodyLines der ++ [closing]).dropLast = bodyLines der := List.dropLast_concat
  rw [toPublicKey?, lines_ofPublicKey]
  dsimp only
  rw [if_pos ⟨rfl, hlast⟩, hbody, List.flatMap_id, flatten_bodyLines,
    Base64.decode_encode Base64.standard_lawful rfl]
  rfl

/-- The text of any bytes is an opening line, body lines and a closing line, each with one newline at its end. The body lines are
base64 of sixty-four characters each, but for the last, which may have fewer and has at least one; together they are decoded
to the bytes. -/
theorem envelope_is_lossless (der : List UInt8) :
    ∃ body : List (List UInt8),
      ofPublicKey der = (opening :: (body ++ [closing])).flatMap (· ++ [newline]) ∧
      lines (ofPublicKey der) = opening :: (body ++ [closing]) ∧
      (∀ line ∈ body, ∀ b ∈ line, IsBase64 b) ∧
      (∀ line ∈ body.dropLast, line.length = 64) ∧
      (∀ line ∈ body.getLast?, 0 < line.length ∧ line.length ≤ 64) ∧
      Base64.standard.decode .canonical body.flatten = .ok der := by
  have hfilled : Filled 64 (bodyLines der) := filled_chunksWithin (by decide) (Nat.le_refl _)
  refine ⟨bodyLines der, rfl, lines_ofPublicKey der, ?_, hfilled.1, hfilled.2, ?_⟩
  · exact fun line hline => isBase64_of_mem_bodyLines hline
  · rw [flatten_bodyLines, Base64.decode_encode Base64.standard_lawful rfl]

/-- Without bytes there are no body lines, and forty-eight bytes fill one. -/
theorem empty_and_full_envelope :
    lines (ofPublicKey []) = [opening, closing] ∧
      ∃ line, lines (ofPublicKey (List.replicate 48 0xab)) = [opening, line, closing] ∧ line.length = 64 ∧
        Base64.standard.decode .canonical line = .ok (List.replicate 48 0xab) := by
  obtain ⟨noLines, -, hnone, -⟩ := envelope_is_lossless []
  obtain ⟨oneLine, -, hone, -, -, -, hdecode⟩ := envelope_is_lossless (List.replicate 48 0xab)
  have hclosing : [closing].map List.length = [24] := by decide +kernel
  have hempty : (lines (ofPublicKey [])).map List.length = [26, 24] := by decide +kernel
  have hfull : (lines (ofPublicKey (List.replicate 48 0xab))).map List.length = [26, 64, 24] := by decide +kernel
  constructor
  · rw [hnone, List.map_cons, List.map_append, hclosing] at hempty
    have hbody : noLines.map List.length = [] := List.append_inj_left' (List.cons.inj hempty).2 rfl
    rw [hnone, List.map_eq_nil_iff.mp hbody]
    rfl
  · rw [hone, List.map_cons, List.map_append, hclosing] at hfull
    have hbody : oneLine.map List.length = [64] := List.append_inj_left' (List.cons.inj hfull).2 rfl
    obtain ⟨line, rfl, hlength⟩ := List.map_eq_singleton_iff.mp hbody
    refine ⟨line, hone, hlength, ?_⟩
    rwa [List.flatten_singleton] at hdecode

end DirectoryGateway.Pem
