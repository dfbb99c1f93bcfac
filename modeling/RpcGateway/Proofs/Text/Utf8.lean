import RpcGateway.Proofs.Text.Ascii
/-!
# Reading UTF-8 back

Text that was written as UTF-8 is read as it was, also by the lossy reading. A character takes one to four
bytes; for each of these forms the tail is shown to fit the ranges of its leading byte. What is read takes
no more bytes to write than it was read from.
-/
namespace RpcGateway.Utf8

/-- Each byte lies in its range. -/
inductive Fits : List (UInt8 × UInt8) → Bytes → Prop
  | nil : Fits [] []
  | cons {lo hi b : UInt8} {ranges : List (UInt8 × UInt8)} {tail : Bytes}
    (low : lo ≤ b) (high : b ≤ hi) (more : Fits ranges tail) :
    Fits ((lo, hi) :: ranges) (b :: tail)

/-- A leading byte and the complete tail of a character. -/
structure Spells (b : UInt8) (tail : Bytes) (c : Char) : Prop where
  fits : ∃ ranges, tails b = some ranges ∧ Fits ranges tail
  scalar : scalar b tail = c

theorem Fits.length_eq {ranges : List (UInt8 × UInt8)} {tail : Bytes} (h : Fits ranges tail) :
    tail.length = ranges.length := by
  induction h with
  | nil => rfl
  | cons _ _ _ ih => rw [List.length_cons, List.length_cons, ih]

theorem Fits.takeTail {ranges : List (UInt8 × UInt8)} {tail : Bytes} (h : Fits ranges tail)
    (rest : Bytes) : takeTail ranges (tail ++ rest) = tail := by
  induction h with
  | nil => rw [Utf8.takeTail.eq_def]
  | cons low high _ ih => rw [List.cons_append, Utf8.takeTail, if_pos ⟨low, high⟩, ih]

private theorem lossy_append {b : UInt8} {tail : Bytes} {c : Char} (h : Spells b tail c) (rest : Bytes) :
    lossy (b :: tail ++ rest) = c :: lossy rest := by
  obtain ⟨ranges, hranges, hfits⟩ := h.fits
  rw [List.cons_append, lossy, hranges]
  simp only [hfits.takeTail, hfits.length_eq, if_pos, List.drop_left' hfits.length_eq, h.scalar]

/-! ### Leading bytes -/

private theorem tails_one : ∀ n < 0x80, tails (UInt8.ofNat n) = some [] := by
  decide +kernel

private theorem tails_two : ∀ n < 0xE0, 0xC2 ≤ n → tails (UInt8.ofNat n) = some [(0x80, 0xBF)] := by
  decide +kernel

private theorem tails_three : ∀ n < 0xF0, 0xE0 ≤ n → tails (UInt8.ofNat n) =
    some [(if n = 0xE0 then 0xA0 else 0x80, if n = 0xED then 0x9F else 0xBF), (0x80, 0xBF)] := by
  decide +kernel

private theorem tails_four : ∀ n < 0xF5, 0xF0 ≤ n → tails (UInt8.ofNat n) =
    some [(if n = 0xF0 then 0x90 else 0x80, if n = 0xF4 then 0x8F else 0xBF), (0x80, 0xBF),
      (0x80, 0xBF)] := by
  decide +kernel

private theorem le_ofNat {b : UInt8} {n : Nat} (h : b.toNat ≤ n) (hn : n < 256) : b ≤ UInt8.ofNat n := by
  rw [UInt8.le_iff_toNat_le, UInt8.toNat_ofNat']
  omega

private theorem ofNat_le {b : UInt8} {n : Nat} (h : n ≤ b.toNat) (hn : n < 256) : UInt8.ofNat n ≤ b := by
  rw [UInt8.le_iff_toNat_le, UInt8.toNat_ofNat']
  omega

private theorem fits_sextet {ranges : List (UInt8 × UInt8)} {tail : Bytes} (n : Nat)
    (h : Fits ranges tail) : Fits ((0x80, 0xBF) :: ranges) (UInt8.ofNat (n % 64 + 128) :: tail) := by
  have hsextet : n % 64 < 64 := Nat.mod_lt n (by decide)
  have hlow : (0x80 : UInt8).toNat ≤ n % 64 + 128 := Nat.le_add_left _ _
  have hhigh : n % 64 + 128 ≤ (0xBF : UInt8).toNat := by
    simp only [UInt8.reduceToNat]
    omega
  exact .cons (le_ofNat hlow (by omega)) (ofNat_le hhigh (by omega)) h

/-! ### The four forms -/

private theorem spells_one {v : Nat} (h : v < 0x80) : Spells (UInt8.ofNat v) [] (Char.ofNat v) := by
  refine ⟨⟨_, tails_one v h, .nil⟩, ?_⟩
  simp only [scalar, List.length_nil, List.foldl_nil, UInt8.toNat_ofNat']
  congr 1
  omega

private theorem spells_two {v : Nat} (low : 0x80 ≤ v) (high : v < 0x800) :
    Spells (UInt8.ofNat (v / 64 % 32 + 192)) [UInt8.ofNat (v % 64 + 128)] (Char.ofNat v) := by
  refine ⟨⟨_, tails_two _ (by omega) (by omega), fits_sextet _ .nil⟩, ?_⟩
  simp only [scalar, List.length_cons, List.length_nil, List.foldl_cons, List.foldl_nil,
    UInt8.toNat_ofNat']
  congr 1
  omega

/-- The ranges of the second byte keep out what fits two bytes, and the surrogates. -/
private theorem spells_three {v : Nat} (low : 0x800 ≤ v) (high : v < 0x10000)
    (hvalid : v < 0xD800 ∨ 0xDFFF < v) :
    Spells (UInt8.ofNat (v / 4096 % 16 + 224))
      [UInt8.ofNat (v / 64 % 64 + 128), UInt8.ofNat (v % 64 + 128)] (Char.ofNat v) := by
  refine ⟨⟨_, tails_three _ (by omega) (by omega), .cons ?_ ?_ (fits_sextet _ .nil)⟩, ?_⟩
  · apply le_ofNat
    · split <;> simp only [UInt8.reduceToNat] <;> omega
    · omega
  · apply ofNat_le
    · split <;> simp only [UInt8.reduceToNat] <;> omega
    · omega
  · simp only [scalar, List.length_cons, List.length_nil, List.foldl_cons, List.foldl_nil,
      UInt8.toNat_ofNat']
    congr 1
    omega

private theorem spells_four {v : Nat} (low : 0x10000 ≤ v) (high : v < 0x110000) :
    Spells (UInt8.ofNat (v / 262144 % 8 + 240))
      [UInt8.ofNat (v / 4096 % 64 + 128), UInt8.ofNat (v / 64 % 64 + 128), UInt8.ofNat (v % 64 + 128)]
      (Char.ofNat v) := by
  refine ⟨⟨_, tails_four _ (by omega) (by omega), .cons ?_ ?_ (fits_sextet _ (fits_sextet _ .nil))⟩, ?_⟩
  · apply le_ofNat
    · split <;> simp only [UInt8.reduceToNat] <;> omega
    · omega
  · apply ofNat_le
    · split <;> simp only [UInt8.reduceToNat] <;> omega
    · omega
  · simp only [scalar, List.length_cons, List.length_nil, List.foldl_cons, List.foldl_nil,
      UInt8.toNat_ofNat']
    congr 1
    omega

theorem exists_spells (c : Char) :
    ∃ b tail, String.utf8EncodeChar c = b :: tail ∧ Spells b tail c := by
  have hvalid : c.val.toNat < 0xD800 ∨ 0xDFFF < c.val.toNat ∧ c.val.toNat < 0x110000 := c.valid
  have hspelled : Char.ofNat c.val.toNat = c := Char.ofNat_toNat c
  rw [String.utf8EncodeChar.eq_def]
  generalize c.val.toNat = v at hvalid hspelled
  subst hspelled
  simp only []
  by_cases h1 : v ≤ 0x7F
  · rw [if_pos h1]
    exact ⟨_, _, rfl, spells_one (by omega)⟩
  · rw [if_neg h1]
    by_cases h2 : v ≤ 0x7FF
    · rw [if_pos h2]
      exact ⟨_, _, rfl, spells_two (by omega) (by omega)⟩
    · rw [if_neg h2]
      by_cases h3 : v ≤ 0xFFFF
      · rw [if_pos h3]
        exact ⟨_, _, rfl, spells_three (by omega) (by omega) (by omega)⟩
      · rw [if_neg h3]
        exact ⟨_, _, rfl, spells_four (by omega) (by omega)⟩

/-- The lossy reading loses nothing of text that was written. -/
theorem lossy_encode (cs : List Char) : lossy (encode cs) = cs := by
  induction cs with
  | nil => rw [encode, List.flatMap_nil, lossy]
  | cons c rest ih =>
    obtain ⟨b, tail, hbytes, hspells⟩ := exists_spells c
    rw [encode] at ih ⊢
    rw [List.flatMap_cons, hbytes, lossy_append hspells, ih]

private theorem Fits.not_ascii {ranges : List (UInt8 × UInt8)} {tail : Bytes} (h : Fits ranges tail)
    (hranges : ∀ r ∈ ranges, 0x80 ≤ r.1) : ∀ b ∈ tail, 0x80 ≤ b := by
  induction h with
  | nil => simp
  | cons low _ _ ih =>
    rw [List.forall_mem_cons] at hranges ⊢
    exact ⟨UInt8.le_trans hranges.1 low, ih hranges.2⟩

private theorem tails_not_ascii {b : UInt8} {ranges : List (UInt8 × UInt8)} (h : tails b = some ranges) :
    ∀ r ∈ ranges, 0x80 ≤ r.1 := by
  have hall : ((tails b).getD []).all (fun r => decide (0x80 ≤ r.1)) = true :=
    forall_byte (P := fun b => ((tails b).getD []).all (fun r => decide (0x80 ≤ r.1)) = true)
      (by decide +kernel) b
  rw [h] at hall
  simpa using hall

/-- A byte below 128 stands for itself and is no part of another character. -/
theorem eq_ofNat_of_mem {c : Char} {b : UInt8} (h : b ∈ String.utf8EncodeChar c) (hb : b < 0x80) :
    c = Char.ofNat b.toNat := by
  obtain ⟨lead, tail, hbytes, ⟨ranges, hranges, hfits⟩, hscalar⟩ := exists_spells c
  rw [hbytes] at h
  rcases List.mem_cons.mp h with rfl | htail
  · obtain rfl := Option.some.inj ((tails_ascii hb).symm.trans hranges)
    cases hfits
    exact hscalar.symm
  · have hhigh := hfits.not_ascii (tails_not_ascii hranges) b htail
    exact absurd hb (UInt8.not_lt.mpr hhigh)

private theorem decode?_append {b : UInt8} {tail : Bytes} {c : Char} (h : Spells b tail c) (rest : Bytes) :
    decode? (b :: tail ++ rest) = (decode? rest).map (c :: ·) := by
  obtain ⟨ranges, hranges, hfits⟩ := h.fits
  rw [List.cons_append, decode?, hranges]
  simp only [Option.bind_eq_bind, Option.bind_some, hfits.takeTail, hfits.length_eq, if_true,
    List.drop_left' hfits.length_eq, h.scalar]
  cases decode? rest <;> rfl

theorem decode?_encode (cs : List Char) : decode? (encode cs) = some cs := by
  induction cs with
  | nil => rw [encode, List.flatMap_nil, decode?]
  | cons c rest ih =>
    obtain ⟨b, tail, hbytes, hspells⟩ := exists_spells c
    rw [encode] at ih ⊢
    rw [List.flatMap_cons, hbytes, decode?_append hspells, ih]
    rfl

private theorem length_takeTail_le (ranges : List (UInt8 × UInt8)) (bs : Bytes) :
    (takeTail ranges bs).length ≤ bs.length := by
  fun_induction takeTail ranges bs <;> grind

private theorem toNat_ofNat_le (n : Nat) : (Char.ofNat n).toNat ≤ n := by
  by_cases h : n.isValidChar
  · have hsame : Char.ofNat n = Char.ofNatAux n h := dif_pos h
    rw [hsame]
    exact Nat.le_refl n
  · have hzero : Char.ofNat n = Char.ofNatAux 0 (by decide) := dif_neg h
    rw [hzero]
    exact Nat.zero_le n

private theorem length_utf8EncodeChar_le (c : Char) :
    (String.utf8EncodeChar c).length ≤
      if c.toNat < 0x80 then 1 else if c.toNat < 0x800 then 2 else if c.toNat < 0x10000 then 3
      else 4 := by
  have hnumber : c.toNat = c.val.toNat := rfl
  rw [String.utf8EncodeChar.eq_def, hnumber]
  grind

/-- A tail has bits for no longer character: seven without a byte in it, eleven with one, and sixteen with
two. -/
private theorem length_scalar_le {b : UInt8} {ranges : List (UInt8 × UInt8)} {tail : Bytes}
    (h : tails b = some ranges) (hlength : tail.length = ranges.length) :
    (String.utf8EncodeChar (scalar b tail)).length ≤ tail.length + 1 := by
  have hlead : ranges = [] → b.toNat < 0x80 := by
    intro hnil
    rw [hnil] at h
    exact forall_byte (P := fun b => tails b = some [] → b.toNat < 0x80) (by decide +kernel) b h
  have hsize := length_utf8EncodeChar_le (scalar b tail)
  rw [scalar] at hsize ⊢
  match tail, hlength with
  | [], hlength =>
    have hnumber := toNat_ofNat_le b.toNat
    have hascii := hlead (List.length_eq_zero_iff.mp hlength.symm)
    simp only [List.length_nil, List.foldl_nil] at hsize ⊢
    grind
  | [t], _ =>
    have hnumber := toNat_ofNat_le (b.toNat % 32 * 64 + t.toNat % 64)
    simp only [List.length_cons, List.length_nil, List.foldl_cons, List.foldl_nil] at hsize ⊢
    grind
  | [t, u], _ =>
    have hnumber := toNat_ofNat_le ((b.toNat % 16 * 64 + t.toNat % 64) * 64 + u.toNat % 64)
    simp only [List.length_cons, List.length_nil, List.foldl_cons, List.foldl_nil] at hsize ⊢
    grind
  | _ :: _ :: _ :: rest, _ =>
    simp only [List.length_cons] at hsize ⊢
    grind

theorem length_encode_le {bs : Bytes} {cs : List Char} (h : decode? bs = some cs) :
    (encode cs).length ≤ bs.length := by
  induction bs using decode?.induct generalizing cs with
  | case1 =>
    rw [decode?] at h
    cases h
    exact Nat.le_refl _
  | case2 b rest ih =>
    rw [decode?] at h
    simp only [Option.bind_eq_bind, Option.bind_eq_some_iff] at h
    obtain ⟨ranges, hranges, h⟩ := h
    by_cases hlength : (takeTail ranges rest).length = ranges.length
    · rw [if_pos hlength] at h
      obtain ⟨more, hmore, hcs⟩ := Option.bind_eq_some_iff.mp h
      cases hcs
      have hchar := length_scalar_le hranges hlength
      have hrest := ih ranges hmore
      have htail := length_takeTail_le ranges rest
      rw [List.length_drop] at hrest
      rw [encode] at hrest ⊢
      rw [List.flatMap_cons, List.length_append, List.length_cons]
      omega
    · rw [if_neg hlength] at h
      cases h

end RpcGateway.Utf8
