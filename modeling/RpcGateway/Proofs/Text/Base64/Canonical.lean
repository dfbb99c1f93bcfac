import Mathlib.Algebra.Group.Nat.Defs
import Mathlib.Data.List.Basic
import RpcGateway.Proofs.Outcome
import RpcGateway.Proofs.Text.Ascii
import RpcGateway.Proofs.Text.Base64
import RpcGateway.Proofs.Text.Unambiguous
/-!
# The one Base64 form of bytes

The bits of the bytes in order, filled up with zeros, are cut into groups of six. Each group is shown by its
letter of the alphabet, and padding makes the text as long as a multiple of four. Bytes have exactly one such
form, which is the one that is written, and reading accepts it and nothing else.
-/
namespace RpcGateway.Base64

open Outcome (bind_eq_ok_iff ite_throw_eq_ok_iff)

def alphabet : Bytes :=
  bytesOf "ABCDEFGHIJKLMNOPQRSTUVWXYZabcdefghijklmnopqrstuvwxyz0123456789+/"

/-- The lowest `width` bits of a number, the highest of them first. -/
def bits : (width n : Nat) → List Bool
  | 0, _ => []
  | width + 1, n => bits width (n / 2) ++ [decide (n % 2 = 1)]

def byteBits (b : UInt8) : List Bool := bits 8 b.toNat

/-- The bits for which a letter of the alphabet stands: those of its position. -/
def letterBits (letter : UInt8) : List Bool := bits 6 (alphabet.idxOf letter)

/-- A text is the padded form of bytes: letters that spell their bits and less than a letter's worth of zeros,
and no more padding than needed. -/
structure Spells (letters : Bytes) (zeros padding : Nat) (text bs : Bytes) : Prop where
  written : text = letters ++ List.replicate padding pad
  known : ∀ letter ∈ letters, letter ∈ alphabet
  sameBits : letters.flatMap letterBits = bs.flatMap byteBits ++ List.replicate zeros false
  filled : zeros < 6
  whole : text.length % 4 = 0
  needed : padding < 4

def IsFormOf (text bs : Bytes) : Prop :=
  ∃ letters zeros padding, Spells letters zeros padding text bs

private theorem length_bits (width n : Nat) : (bits width n).length = width := by
  induction width generalizing n with
  | zero => rfl
  | succ width ih => rw [bits, List.length_append, ih, List.length_singleton]

private theorem bits_add (m n x : Nat) : bits (m + n) x = bits m (x / 2 ^ n) ++ bits n x := by
  induction n generalizing x with
  | zero => rw [Nat.add_zero, Nat.pow_zero, Nat.div_one, bits, List.append_nil]
  | succ n ih =>
    rw [← Nat.add_assoc, bits, ih, Nat.div_div_eq_div_mul, ← Nat.pow_succ', bits,
      List.append_assoc]

private theorem bits_mod (n x : Nat) : bits n (x % 2 ^ n) = bits n x := by
  induction n generalizing x with
  | zero => rfl
  | succ n ih =>
    have hupper : x % 2 ^ (n + 1) / 2 = x / 2 % 2 ^ n := by
      rw [Nat.pow_succ', Nat.mod_mul_right_div_self]
    have hlowest : x % 2 ^ (n + 1) % 2 = x % 2 := by
      rw [Nat.pow_succ', Nat.mod_mul_right_mod]
    rw [bits, bits, hupper, hlowest, ih]

private theorem bits_append {m n x v : Nat} (u : Nat) (hx : x = u * 2 ^ n + v) (hv : v < 2 ^ n) :
    bits (m + n) x = bits m u ++ bits n v := by
  have hupper : x / 2 ^ n = u := by
    rw [hx, Nat.mul_comm, Nat.mul_add_div (Nat.two_pow_pos n), Nat.div_eq_of_lt hv, Nat.add_zero]
  have hlower : x % 2 ^ n = v := by
    rw [hx, Nat.mul_add_mod_self_right, Nat.mod_eq_of_lt hv]
  rw [bits_add, hupper, ← bits_mod n x, hlower]

private theorem bits_injective {width x y : Nat} (hx : x < 2 ^ width) (hy : y < 2 ^ width)
    (h : bits width x = bits width y) : x = y := by
  induction width generalizing x y with
  | zero => omega
  | succ width ih =>
    rw [bits, bits] at h
    obtain ⟨hupper, hlowest⟩ := List.append_inj h (by rw [length_bits, length_bits])
    have hhalf := ih (by omega) (by omega) hupper
    simp only [List.cons.injEq, and_true, decide_eq_decide] at hlowest
    omega

private theorem cutsOff_letterBits : Cut.CutsOff (· ∈ alphabet) letterBits := by
  intro letter letter' s t hletter hletter' heq
  obtain ⟨hbits, hrest⟩ := List.append_inj heq (by simp only [letterBits, length_bits])
  have hposition : ∀ letter ∈ alphabet, alphabet.idxOf letter < 2 ^ 6 :=
    fun letter hletter => List.idxOf_lt_length_of_mem hletter
  have hsame := bits_injective (hposition letter hletter) (hposition letter' hletter') hbits
  exact ⟨(List.idxOf_inj hletter).mp hsame, hrest⟩

private theorem length_flatMap_bits {α : Type} {width : Nat} {f : α → List Bool}
    (h : ∀ a, (f a).length = width) (xs : List α) : (xs.flatMap f).length = xs.length * width := by
  rw [List.length_flatMap, List.map_congr_left fun a _ => h a, List.map_const', List.sum_replicate_nat]

variable {letters letters' text text' bs bs' : Bytes} {zeros zeros' padding padding' : Nat}

private theorem Spells.lengths (h : Spells letters zeros padding text bs) :
    letters.length * 6 = bs.length * 8 + zeros ∧ (letters.length + padding) % 4 = 0 := by
  have hbits := congrArg List.length h.sameBits
  have hwhole := h.whole
  rw [length_flatMap_bits (f := letterBits) fun letter => length_bits 6 _, List.length_append,
    length_flatMap_bits (f := byteBits) fun b => length_bits 8 _, List.length_replicate] at hbits
  rw [h.written, List.length_append, List.length_replicate] at hwhole
  exact ⟨hbits, hwhole⟩

private theorem IsFormOf.unique (h : IsFormOf text bs) (h' : IsFormOf text' bs) : text = text' := by
  obtain ⟨letters, zeros, padding, h⟩ := h
  obtain ⟨letters', zeros', padding', h'⟩ := h'
  obtain ⟨hbits, hwhole⟩ := h.lengths
  obtain ⟨hbits', hwhole'⟩ := h'.lengths
  have hfilled := h.filled
  have hfilled' := h'.filled
  have hneeded := h.needed
  have hneeded' := h'.needed
  obtain rfl : zeros = zeros' := by omega
  obtain rfl : padding = padding' := by omega
  obtain rfl : letters = letters' := by
    refine cutsOff_letterBits.flatMap_injective ?_ h.known h'.known (h.sameBits.trans h'.sameBits.symm)
    intro letter _ hnil
    have hlength : (letterBits letter).length = 6 := length_bits 6 _
    rw [hnil] at hlength
    cases hlength
  rw [h.written, h'.written]

private theorem byteBits_split (b : UInt8) {m n : Nat} (h : m + n = 8) :
    byteBits b = bits m (b.toNat / 2 ^ n) ++ bits n (b.toNat % 2 ^ n) := by
  rw [byteBits, ← h, bits_add, bits_mod]

private theorem byteBits_eq_six (b : UInt8) :
    byteBits b = bits 6 (b.toNat / 4) ++ bits 2 (b.toNat % 4) :=
  byteBits_split b (m := 6) (n := 2) rfl

private theorem byteBits_eq_four (b : UInt8) :
    byteBits b = bits 4 (b.toNat / 16) ++ bits 4 (b.toNat % 16) :=
  byteBits_split b (m := 4) (n := 4) rfl

private theorem byteBits_eq_two (b : UInt8) :
    byteBits b = bits 2 (b.toNat / 64) ++ bits 6 (b.toNat % 64) :=
  byteBits_split b (m := 2) (n := 6) rfl

private theorem bits_second (a b : UInt8) :
    bits 6 (a.toNat % 4 * 16 + b.toNat / 16) = bits 2 (a.toNat % 4) ++ bits 4 (b.toNat / 16) := by
  have hb := b.toNat_lt
  exact bits_append (m := 2) (n := 4) (a.toNat % 4) rfl (by omega)

private theorem bits_third (b c : UInt8) :
    bits 6 (b.toNat % 16 * 4 + c.toNat / 64) = bits 4 (b.toNat % 16) ++ bits 2 (c.toNat / 64) := by
  have hc := c.toNat_lt
  exact bits_append (m := 4) (n := 2) (b.toNat % 16) rfl (by omega)

private theorem letterBits_symbol {n : Nat} (h : n < 64) : letterBits (symbol n) = bits 6 n := by
  have checked : ∀ n < 64, alphabet.idxOf (symbol n) = n := by decide +kernel
  rw [letterBits, checked n h]

private theorem symbol_mem_alphabet {n : Nat} (h : n < 64) : symbol n ∈ alphabet := by
  have checked : ∀ n < 64, alphabet.contains (symbol n) = true := by decide +kernel
  exact List.contains_iff_mem.mp (checked n h)

theorem isFormOf_encode (bs : Bytes) : IsFormOf (encode bs) bs := by
  induction bs using encode.induct with
  | case1 a b c rest ih =>
    obtain ⟨letters, zeros, padding, ih⟩ := ih
    obtain ⟨h₁, h₂, h₃, h₄⟩ := group_lt a b c
    refine ⟨symbol (a.toNat / 4) :: symbol (a.toNat % 4 * 16 + b.toNat / 16) ::
      symbol (b.toNat % 16 * 4 + c.toNat / 64) :: symbol (c.toNat % 64) :: letters, zeros, padding,
      ?_, ?_, ?_, ih.filled, length_encode_mod _, ih.needed⟩
    · rw [encode, ih.written]
      rfl
    · simp only [List.forall_mem_cons]
      exact ⟨symbol_mem_alphabet h₁, symbol_mem_alphabet h₂, symbol_mem_alphabet h₃,
        symbol_mem_alphabet h₄, ih.known⟩
    · simp only [List.flatMap_cons, letterBits_symbol h₁, letterBits_symbol h₂, letterBits_symbol h₃,
        letterBits_symbol h₄, ih.sameBits, bits_second, bits_third, byteBits_eq_six a,
        byteBits_eq_four b, byteBits_eq_two c, List.append_assoc]
  | case2 a b =>
    obtain ⟨h₁, h₂, h₃, -⟩ := group_lt a b 0
    have hthird := bits_third b 0
    simp only [UInt8.toNat_zero, Nat.zero_div, Nat.add_zero] at h₃ hthird
    refine ⟨[symbol (a.toNat / 4), symbol (a.toNat % 4 * 16 + b.toNat / 16),
      symbol (b.toNat % 16 * 4)], 2, 1, rfl, ?_, ?_, by decide, length_encode_mod _, by decide⟩
    · simp only [List.forall_mem_cons]
      exact ⟨symbol_mem_alphabet h₁, symbol_mem_alphabet h₂, symbol_mem_alphabet h₃, by simp⟩
    · simp only [List.flatMap_cons, letterBits_symbol h₁, letterBits_symbol h₂, letterBits_symbol h₃,
        bits_second, hthird, byteBits_eq_six a, byteBits_eq_four b, List.append_assoc]
      rfl
  | case3 a =>
    obtain ⟨h₁, h₂, -, -⟩ := group_lt a 0 0
    have hsecond := bits_second a 0
    simp only [UInt8.toNat_zero, Nat.zero_div, Nat.add_zero] at h₂ hsecond
    refine ⟨[symbol (a.toNat / 4), symbol (a.toNat % 4 * 16)], 4, 2, rfl, ?_, ?_, by decide,
      length_encode_mod _, by decide⟩
    · simp only [List.forall_mem_cons]
      exact ⟨symbol_mem_alphabet h₁, symbol_mem_alphabet h₂, by simp⟩
    · simp only [List.flatMap_cons, letterBits_symbol h₁, letterBits_symbol h₂, hsecond,
        byteBits_eq_six a, List.append_assoc]
      rfl
  | case4 => exact ⟨[], 0, 0, rfl, by simp, rfl, by decide, rfl, by decide⟩

/-- The form of bytes is what is written for them. -/
theorem isFormOf_iff {text bs : Bytes} : IsFormOf text bs ↔ text = encode bs :=
  ⟨fun h => h.unique (isFormOf_encode bs), fun h => h ▸ isFormOf_encode bs⟩

private theorem read_eq_ok {offset : Nat} {b : UInt8} {n : Nat} (h : read offset b = .ok n) :
    n < 64 ∧ b = symbol n := by
  have checked : ∀ b : UInt8, ∀ n ∈ value? b, n < 64 ∧ b = symbol n := by
    intro b n hn
    have hbyte := forall_byte
      (P := fun b => (value? b).all (fun n => decide (n < 64 ∧ b = symbol n)) = true)
      (by decide +kernel) b
    rw [Option.mem_def.mp hn] at hbyte
    exact of_decide_eq_true hbyte
  rw [read] at h
  cases hvalue : value? b with
  | none =>
    rw [hvalue] at h
    cases h
  | some found =>
    rw [hvalue] at h
    cases h
    exact checked b n hvalue

private theorem toNat_firstByte {p q : Nat} (hp : p < 64) (hq : q < 64) :
    (firstByte p q).toNat = p * 4 + q / 16 :=
  UInt8.toNat_ofNat_of_lt' (show _ < 256 by omega)

private theorem toNat_secondByte {q r : Nat} (hr : r < 64) :
    (secondByte q r).toNat = q % 16 * 16 + r / 4 :=
  UInt8.toNat_ofNat_of_lt' (show _ < 256 by omega)

private theorem toNat_thirdByte {r s : Nat} (hs : s < 64) : (thirdByte r s).toNat = r % 4 * 64 + s :=
  UInt8.toNat_ofNat_of_lt' (show _ < 256 by omega)

private theorem encode_read {p q r s : Nat} (hp : p < 64) (hq : q < 64) (hr : r < 64) (hs : s < 64)
    (rest : Bytes) :
    encode (firstByte p q :: secondByte q r :: thirdByte r s :: rest) =
      symbol p :: symbol q :: symbol r :: symbol s :: encode rest := by
  have h₁ : (p * 4 + q / 16) / 4 = p := by omega
  have h₂ : (p * 4 + q / 16) % 4 * 16 + (q % 16 * 16 + r / 4) / 16 = q := by omega
  have h₃ : (q % 16 * 16 + r / 4) % 16 * 4 + (r % 4 * 64 + s) / 64 = r := by omega
  have h₄ : (r % 4 * 64 + s) % 64 = s := by omega
  rw [encode, toNat_firstByte hp hq, toNat_secondByte hr, toNat_thirdByte hs, h₁, h₂, h₃, h₄]

private theorem readGroup_eq_ok {offset : Nat} {a b c d : UInt8} {group : Bytes}
    (h : readGroup offset a b c d = .ok group) (rest : Bytes) :
    a :: b :: c :: d :: encode rest = encode (group ++ rest) := by
  rw [readGroup] at h
  obtain ⟨p, ha, h⟩ := bind_eq_ok_iff.mp h
  obtain ⟨q, hb, h⟩ := bind_eq_ok_iff.mp h
  obtain ⟨r, hc, h⟩ := bind_eq_ok_iff.mp h
  obtain ⟨s, hd, h⟩ := bind_eq_ok_iff.mp h
  cases h
  obtain ⟨hp, rfl⟩ := read_eq_ok ha
  obtain ⟨hq, rfl⟩ := read_eq_ok hb
  obtain ⟨hr, rfl⟩ := read_eq_ok hc
  obtain ⟨hs, rfl⟩ := read_eq_ok hd
  exact (encode_read hp hq hr hs rest).symm

private theorem readLast_eq_ok {offset place padding : Nat} {group : Bytes} {ns : List Nat} {total : Nat}
    (h : readLast offset place padding group = .ok (ns, total)) :
    ∃ more, total = padding + more ∧ group = ns.map symbol ++ List.replicate more pad ∧
      (∀ n ∈ ns, n < 64) ∧ (padding ≠ 0 → ns = []) := by
  induction group generalizing place padding ns total with
  | nil =>
    rw [readLast] at h
    cases h
    exact ⟨0, rfl, rfl, by simp, fun _ => rfl⟩
  | cons b rest ih =>
    rw [readLast] at h
    by_cases hpad : b = pad
    · rw [if_pos hpad] at h
      split at h
      · cases h
      · obtain ⟨more, rfl, rfl, -, hnone⟩ := ih h
        obtain rfl := hnone (Nat.succ_ne_zero padding)
        exact ⟨more + 1, by omega, by rw [hpad]; rfl, by simp, fun _ => rfl⟩
    · rw [if_neg hpad] at h
      split at h
      · cases h
      · rename_i hzero
        obtain ⟨n, hn, h⟩ := bind_eq_ok_iff.mp h
        obtain ⟨⟨tail, total'⟩, htail, h⟩ := bind_eq_ok_iff.mp h
        cases h
        obtain ⟨hlt, rfl⟩ := read_eq_ok hn
        obtain ⟨more, rfl, rfl, hall, -⟩ := ih htail
        exact ⟨more, by omega, rfl, List.forall_mem_cons.mpr ⟨hlt, hall⟩, by omega⟩

private theorem encode_one {p q : Nat} (hp : p < 64) (hq : q < 64) (hunused : q % 16 = 0) :
    encode [firstByte p q] = [symbol p, symbol q, pad, pad] := by
  have h₁ : (p * 4 + q / 16) / 4 = p := by omega
  have h₂ : (p * 4 + q / 16) % 4 * 16 = q := by omega
  rw [encode, toNat_firstByte hp hq, h₁, h₂]

private theorem encode_two {p q r : Nat} (hp : p < 64) (hq : q < 64) (hr : r < 64) (hunused : r % 4 = 0) :
    encode [firstByte p q, secondByte q r] = [symbol p, symbol q, symbol r, pad] := by
  have h₁ : (p * 4 + q / 16) / 4 = p := by omega
  have h₂ : (p * 4 + q / 16) % 4 * 16 + (q % 16 * 16 + r / 4) / 16 = q := by omega
  have h₃ : (q % 16 * 16 + r / 4) % 16 * 4 = r := by omega
  rw [encode, toNat_firstByte hp hq, toNat_secondByte hr, h₁, h₂, h₃]

private theorem readFinal_eq_ok {offset : Nat} {group bs : Bytes} (hlength : group.length ≤ 4)
    (h : readFinal offset group = .ok bs) : group = encode bs := by
  rw [readFinal] at h
  obtain ⟨⟨ns, padding⟩, hlast, h⟩ := bind_eq_ok_iff.mp h
  obtain ⟨more, rfl, rfl, hall, -⟩ := readLast_eq_ok hlast
  simp only [Nat.zero_add] at h
  rcases ns with _ | ⟨p, _ | ⟨q, _ | ⟨r, _ | ⟨s, rest⟩⟩⟩⟩
  · cases more with
    | zero =>
      cases h
      rfl
    | succ more => cases h
  · cases h
  · simp only [List.map_cons, List.map_nil] at h ⊢
    obtain ⟨hpadding, h⟩ := ite_throw_eq_ok_iff.mp h
    obtain ⟨hunused, h⟩ := ite_throw_eq_ok_iff.mp h
    cases h
    rw [encode_one (hall p (by simp)) (hall q (by simp)) (Decidable.not_not.mp hunused),
      Decidable.not_not.mp hpadding]
    rfl
  · simp only [List.map_cons, List.map_nil] at h ⊢
    obtain ⟨hpadding, h⟩ := ite_throw_eq_ok_iff.mp h
    obtain ⟨hunused, h⟩ := ite_throw_eq_ok_iff.mp h
    cases h
    rw [encode_two (hall p (by simp)) (hall q (by simp)) (hall r (by simp))
      (Decidable.not_not.mp hunused), Decidable.not_not.mp hpadding]
    rfl
  · obtain ⟨rfl, rfl⟩ : rest = [] ∧ more = 0 := by
      simp only [List.map_cons, List.length_append, List.length_cons, List.length_map,
        List.length_replicate] at hlength
      exact ⟨List.length_eq_zero_iff.mp (by omega), by omega⟩
    cases h
    exact (encode_read (hall p (by simp)) (hall q (by simp)) (hall r (by simp)) (hall s (by simp))
      []).symm

private theorem readFrom_eq_ok {offset : Nat} {text bs : Bytes} (h : readFrom offset text = .ok bs) :
    text = encode bs := by
  fun_induction readFrom offset text generalizing bs with
  | case1 offset a b c d e rest ih =>
    obtain ⟨group, hgroup, h⟩ := bind_eq_ok_iff.mp h
    obtain ⟨more, hmore, h⟩ := bind_eq_ok_iff.mp h
    cases h
    rw [← readGroup_eq_ok hgroup, ih hmore]
  | case2 offset group hshort =>
    have hlength : group.length ≤ 4 := by
      apply Nat.le_of_not_lt
      intro hlong
      rcases group with _ | ⟨a, _ | ⟨b, _ | ⟨c, _ | ⟨d, _ | ⟨e, rest⟩⟩⟩⟩⟩
      case cons.cons.cons.cons.cons => exact hshort a b c d e rest rfl
      all_goals simp at hlong
    exact readFinal_eq_ok hlength h

/-- Reading accepts exactly what is written for some bytes, and gives these bytes. -/
theorem decode_eq_ok_iff {text bs : Bytes} : decode text = .ok bs ↔ IsFormOf text bs := by
  rw [isFormOf_iff]
  constructor
  · intro h
    rw [decode] at h
    split at h
    · cases h
    · exact readFrom_eq_ok h
  · rintro rfl
    exact decode_encode bs

end RpcGateway.Base64
