import RpcGateway.Proofs.Text.Ascii
import RpcGateway.Proofs.Text.Blank
import RpcGateway.Proofs.Text.Utf8
import RpcGateway.Text.Percent
/-!
# Escaped text

Text with percent escapes is printable ASCII, and its only blanks are the spaces of the text that was
escaped. So trimming takes from it what trimming takes from this text: the spaces at its ends. Decoding
changes a text exactly if there is an escape in it, and then makes it shorter.
-/
namespace RpcGateway.Percent

theorem encode_eq_flatMap (bs : Bytes) : encode bs = bs.flatMap fun b => encode [b] := by
  induction bs with
  | nil => rfl
  | cons b rest ih =>
    rw [List.flatMap_cons, ← ih, encode, encode]
    split <;> rfl

theorem mem_encode_byte {b x : UInt8} (h : x ∈ encode [b]) :
    0x20 < x ∧ x < 0x7F ∨ x = 0x20 ∧ b = 0x20 := by
  -- As a Boolean, since the instance for a bounded quantifier over a list may be slow to run.
  have hall : (encode [b]).all (fun x => decide (0x20 < x ∧ x < 0x7F ∨ x = 0x20 ∧ b = 0x20)) =
      true :=
    forall_byte (P := fun b => (encode [b]).all (fun x =>
      decide (0x20 < x ∧ x < 0x7F ∨ x = 0x20 ∧ b = 0x20)) = true) (by decide +kernel) b
  exact of_decide_eq_true (List.all_eq_true.mp hall x h)

private theorem mem_encode_lt {bs : Bytes} {x : UInt8} (h : x ∈ encode bs) : x < 0x80 := by
  rw [encode_eq_flatMap] at h
  obtain ⟨b, -, hx⟩ := List.mem_flatMap.mp h
  rcases mem_encode_byte hx with hink | ⟨rfl, -⟩
  · exact UInt8.lt_trans hink.2 (by decide)
  · decide

private theorem encode_ne_nil {bs : Bytes} (h : bs ≠ []) : encode bs ≠ [] := by
  cases bs with
  | nil => exact absurd rfl h
  | cons b rest =>
    rw [encode]
    split <;> exact List.cons_ne_nil _ _

/-- What is written for a character: each of its bytes, escaped if need be. -/
def escape (c : Char) : List Char :=
  Utf8.lossy (encode (String.utf8EncodeChar c))

theorem encode_escape (cs : List Char) :
    Utf8.encode (cs.flatMap escape) = encode (Utf8.encode cs) := by
  have hchar : ∀ c, Utf8.encode (escape c) = encode (String.utf8EncodeChar c) :=
    fun c => Utf8.encode_lossy_ascii fun _ => mem_encode_lt
  calc Utf8.encode (cs.flatMap escape) = cs.flatMap fun c => Utf8.encode (escape c) :=
        List.flatMap_assoc
    _ = cs.flatMap fun c => encode (String.utf8EncodeChar c) := by simp only [hchar]
    _ = cs.flatMap fun c => (String.utf8EncodeChar c).flatMap fun b => encode [b] := by
        simp only [← encode_eq_flatMap]
    _ = (Utf8.encode cs).flatMap fun b => encode [b] := List.flatMap_assoc.symm
    _ = encode (Utf8.encode cs) := (encode_eq_flatMap _).symm

private theorem escape_ne_nil (c : Char) : escape c ≠ [] := by
  obtain ⟨b, tail, hbytes, -⟩ := Utf8.exists_spells c
  rw [escape, Utf8.lossy_ascii fun _ => mem_encode_lt, hbytes]
  exact fun hnil => encode_ne_nil (List.cons_ne_nil b tail) (List.map_eq_nil_iff.mp hnil)

/-- A printable character of ASCII other than the space. -/
def IsInk (x : Char) : Prop :=
  0x20 < x.toNat ∧ x.toNat < 0x7F

instance (x : Char) : Decidable (IsInk x) :=
  inferInstanceAs (Decidable (_ ∧ _))

private theorem isInk_ofNat {b : UInt8} (low : 0x20 < b) (high : b < 0x7F) : IsInk (Char.ofNat b.toNat) :=
  forall_byte (P := fun b => 0x20 < b → b < 0x7F → IsInk (Char.ofNat b.toNat)) (by decide +kernel)
    b low high

theorem IsInk.isBlank {x : Char} (h : IsInk x) : Blank.isBlank x = false := by
  obtain ⟨low, high⟩ := h
  simp only [Blank.isBlank, Blank.ranges, List.any_cons, List.any_nil, Bool.or_false,
    Bool.or_eq_false_iff, Bool.and_eq_false_iff, decide_eq_false_iff_not]
  omega

private theorem mem_escape {c x : Char} (h : x ∈ escape c) : IsInk x ∨ x = ' ' ∧ c = ' ' := by
  rw [escape, Utf8.lossy_ascii fun _ => mem_encode_lt] at h
  obtain ⟨b, hb, rfl⟩ := List.mem_map.mp h
  rw [encode_eq_flatMap] at hb
  obtain ⟨a, ha, hb⟩ := List.mem_flatMap.mp hb
  rcases mem_encode_byte hb with ⟨low, high⟩ | ⟨rfl, rfl⟩
  · exact .inl (isInk_ofNat low high)
  · exact .inr ⟨rfl, Utf8.eq_ofNat_of_mem ha (by decide)⟩

theorem keepsBlanks_escape : Blank.KeepsBlanks (· == ' ') Blank.isBlank escape where
  blank c hc x hx := by
    have hspace : encode (String.utf8EncodeChar ' ') = [0x20] := by decide
    have hascii : ∀ b ∈ [(0x20 : UInt8)], b < 0x80 := by simp
    rw [eq_of_beq hc, escape, hspace, Utf8.lossy_ascii hascii] at hx
    obtain rfl := List.mem_singleton.mp hx
    decide
  ink c hc := by
    refine ⟨escape_ne_nil c, fun x hx => ?_⟩
    rcases mem_escape hx with hink | ⟨-, rfl⟩
    · exact hink.isBlank
    · cases hc

theorem toNat_of_mem_escape {cs : List Char} {x : Char} (h : x ∈ cs.flatMap escape) :
    0x20 ≤ x.toNat ∧ x.toNat < 0x7F := by
  obtain ⟨c, -, hx⟩ := List.mem_flatMap.mp h
  rcases mem_escape hx with ⟨low, high⟩ | ⟨rfl, -⟩
  · exact ⟨Nat.le_of_lt low, high⟩
  · decide

/-! ### Text without escapes -/

/-- Two hexadecimal digits follow a percent sign somewhere. -/
inductive HasEscape : Bytes → Prop
  | here {high low b : UInt8} (rest : Bytes) (h : escaped? high low = some b) :
    HasEscape (0x25 :: high :: low :: rest)
  | later {rest : Bytes} (b : UInt8) (h : HasEscape rest) : HasEscape (b :: rest)

private theorem length_decode_le (bs : Bytes) : (decode bs).length ≤ bs.length := by
  fun_induction decode bs with
  | case1 _ _ _ _ _ ih => exact Nat.le_trans (Nat.succ_le_succ ih) (Nat.le_add_right _ 2)
  | case2 _ _ _ _ ih => exact Nat.succ_le_succ ih
  | case3 _ _ _ ih => exact Nat.succ_le_succ ih
  | case4 => exact Nat.le_refl _

private theorem length_decode_lt_or_eq (bs : Bytes) :
    (HasEscape bs ∧ (decode bs).length < bs.length) ∨ (¬HasEscape bs ∧ decode bs = bs) := by
  fun_induction decode bs with
  | case1 high low rest b hescape ih =>
    have hrest := length_decode_le rest
    exact .inl ⟨.here rest hescape, Nat.lt_add_right 1 (Nat.succ_lt_succ (Nat.lt_succ_of_le hrest))⟩
  | case2 high low rest hplain ih =>
    rcases ih with ⟨hescape, hshorter⟩ | ⟨hnone, hsame⟩
    · exact .inl ⟨.later _ hescape, Nat.succ_lt_succ hshorter⟩
    · refine .inr ⟨fun hescape => ?_, congrArg (0x25 :: ·) hsame⟩
      cases hescape with
      | here _ hb => cases hplain.symm.trans hb
      | later _ hlater => exact hnone hlater
  | case3 b rest hother ih =>
    rcases ih with ⟨hescape, hshorter⟩ | ⟨hnone, hsame⟩
    · exact .inl ⟨.later _ hescape, Nat.succ_lt_succ hshorter⟩
    · refine .inr ⟨fun hescape => ?_, congrArg (b :: ·) hsame⟩
      cases hescape with
      | here _ _ => exact hother _ _ _ rfl rfl
      | later _ hlater => exact hnone hlater
  | case4 => exact .inr ⟨nofun, rfl⟩

theorem hasEscape_iff (bs : Bytes) : HasEscape bs ↔ (decode bs).length < bs.length := by
  rcases length_decode_lt_or_eq bs with ⟨hescape, hshorter⟩ | ⟨hnone, hsame⟩
  · exact iff_of_true hescape hshorter
  · rw [hsame]
    exact iff_of_false hnone (Nat.lt_irrefl _)

instance (bs : Bytes) : Decidable (HasEscape bs) :=
  decidable_of_iff' _ (hasEscape_iff bs)

theorem decode_eq_self {bs : Bytes} (h : ¬HasEscape bs) : decode bs = bs := by
  rcases length_decode_lt_or_eq bs with ⟨hescape, -⟩ | ⟨-, hsame⟩
  · exact absurd hescape h
  · exact hsame

end RpcGateway.Percent
