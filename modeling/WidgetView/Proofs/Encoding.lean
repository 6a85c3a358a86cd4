import Mathlib
import WidgetView.Text.Utf8

/-!
# Encoding and decoding

Decoding accepts exactly what encoding writes. The lead byte and the range of the byte after it
leave no second form of a character, so every byte sequence is the encoding of at most one text, and
a decoding that succeeds finds it.
-/
namespace WidgetView.Text.Utf8

/-- Lead bytes, by how many continuation bytes they announce. -/
theorem lead?_eq_some_iff {b : Nat} {l : Lead} :
    lead? b = some l ↔
      (b < 0x80 ∧ l = ⟨b, 0, 0x80, 0xBF⟩) ∨
      (0xC2 ≤ b ∧ b < 0xE0 ∧ l = ⟨b - 0xC0, 1, 0x80, 0xBF⟩) ∨
      (0xE0 ≤ b ∧ b < 0xF0 ∧
        l = ⟨b - 0xE0, 2, if b = 0xE0 then 0xA0 else 0x80, if b = 0xED then 0x9F else 0xBF⟩) ∨
      (0xF0 ≤ b ∧ b ≤ 0xF4 ∧
        l = ⟨b - 0xF0, 3, if b = 0xF0 then 0x90 else 0x80, if b = 0xF4 then 0x8F else 0xBF⟩) := by
  unfold lead?
  constructor
  · intro h
    split_ifs at h <;> (obtain rfl := Option.some.inj h) <;> simp <;> omega
  · rintro (⟨hb, rfl⟩ | ⟨hlow, hhigh, rfl⟩ | ⟨hlow, hhigh, rfl⟩ | ⟨hlow, hhigh, rfl⟩)
    · rw [if_pos hb]
    · rw [if_neg (by omega), if_neg (by omega), if_pos hhigh]
    · rw [if_neg (by omega), if_neg (by omega), if_neg (by omega)]
      split_ifs <;> simp_all
    · rw [if_neg (by omega), if_neg (by omega), if_neg (by omega), if_neg (by omega),
        if_neg (by omega), if_neg (by omega)]
      split_ifs <;> (simp_all; try omega)

theorem continue?_zero_eq_ok {low high payload good code : Nat} {bytes : List UInt8} :
    continue? 0 low high payload good bytes = .ok code ↔ payload = code := by
  simp [continue?]

theorem continue?_succ_eq_ok {n low high payload good code : Nat} {bytes : List UInt8} :
    continue? (n + 1) low high payload good bytes = .ok code ↔
      ∃ b rest, bytes = b :: rest ∧ low ≤ b.toNat ∧ b.toNat ≤ high ∧
        continue? n 0x80 0xBF (payload * 64 + b.toNat % 64) (good + 1) rest = .ok code := by
  cases bytes with
  | nil => simp [continue?]
  | cons b rest =>
    rw [continue?]
    split
    · next h => simp [h]
    · next h =>
      simp only [reduceCtorEq, List.cons.injEq, false_iff]
      rintro ⟨b', rest', ⟨rfl, rfl⟩, hlow, hhigh, -⟩
      exact h ⟨hlow, hhigh⟩

theorem ofNat_eq {n : Nat} {b : UInt8} (h : b.toNat = n) : UInt8.ofNat n = b := by
  rw [← h]
  exact UInt8.ofNat_toNat

theorem toNat_ofNat {n : Nat} (h : n.isValidChar) : (Char.ofNat n).val.toNat = n := by
  simp [Char.ofNat, h]

/-- A character that was read is written back as the bytes it was read from. -/
theorem eq_utf8EncodeChar_append {b : UInt8} {rest : List UInt8} {l : Lead} {code : Nat}
    (hl : lead? b.toNat = some l)
    (hc : continue? l.following l.low l.high l.payload 0 rest = .ok code) :
    b :: rest = String.utf8EncodeChar (Char.ofNat code) ++ rest.drop l.following := by
  obtain ⟨hb, rfl⟩ | ⟨hlow, hhigh, rfl⟩ | ⟨hlow, hhigh, rfl⟩ | ⟨hlow, hhigh, rfl⟩ :=
    lead?_eq_some_iff.mp hl
  · obtain rfl := continue?_zero_eq_ok.mp hc
    have hvalue : (Char.ofNat b.toNat).val.toNat = b.toNat := toNat_ofNat (Or.inl (by omega))
    simp only [String.utf8EncodeChar, hvalue]
    rw [if_pos (by omega), ofNat_eq rfl]
    rfl
  · obtain ⟨c, rest, rfl, hc1, hc2, hc⟩ := continue?_succ_eq_ok.mp hc
    obtain rfl := continue?_zero_eq_ok.mp hc
    simp only at hc1 hc2
    have hvalid : ((b.toNat - 0xC0) * 64 + c.toNat % 64).isValidChar := Or.inl (by omega)
    simp only [String.utf8EncodeChar, toNat_ofNat hvalid]
    rw [if_neg (by omega), if_pos (by omega), ofNat_eq (b := b) (by omega),
      ofNat_eq (b := c) (by omega)]
    rfl
  · obtain ⟨c, rest, rfl, hc1, hc2, hc⟩ := continue?_succ_eq_ok.mp hc
    obtain ⟨d, rest, rfl, hd1, hd2, hc⟩ := continue?_succ_eq_ok.mp hc
    obtain rfl := continue?_zero_eq_ok.mp hc
    simp only at hc1 hc2
    have hvalid : (((b.toNat - 0xE0) * 64 + c.toNat % 64) * 64 + d.toNat % 64).isValidChar := by
      simp only [Nat.isValidChar]
      split_ifs at hc1 hc2 <;> omega
    simp only [String.utf8EncodeChar, toNat_ofNat hvalid]
    have hsecond : 0x80 ≤ c.toNat ∧ c.toNat ≤ 0xBF := by split_ifs at hc1 hc2 <;> omega
    have hlong : 2047 < ((b.toNat - 0xE0) * 64 + c.toNat % 64) * 64 + d.toNat % 64 := by
      split_ifs at hc1 hc2 <;> omega
    rw [if_neg (by omega), if_neg (by omega), if_pos (by omega), ofNat_eq (b := b) (by omega),
      ofNat_eq (b := c) (by omega), ofNat_eq (b := d) (by omega)]
    rfl
  · obtain ⟨c, rest, rfl, hc1, hc2, hc⟩ := continue?_succ_eq_ok.mp hc
    obtain ⟨d, rest, rfl, hd1, hd2, hc⟩ := continue?_succ_eq_ok.mp hc
    obtain ⟨e, rest, rfl, he1, he2, hc⟩ := continue?_succ_eq_ok.mp hc
    obtain rfl := continue?_zero_eq_ok.mp hc
    simp only at hc1 hc2
    have hvalid : ((((b.toNat - 0xF0) * 64 + c.toNat % 64) * 64 + d.toNat % 64) * 64
        + e.toNat % 64).isValidChar := by
      simp only [Nat.isValidChar]
      split_ifs at hc1 hc2 <;> omega
    simp only [String.utf8EncodeChar, toNat_ofNat hvalid]
    have hsecond : 0x80 ≤ c.toNat ∧ c.toNat ≤ 0xBF := by split_ifs at hc1 hc2 <;> omega
    have hlong : 65535 < (((b.toNat - 0xF0) * 64 + c.toNat % 64) * 64 + d.toNat % 64) * 64
        + e.toNat % 64 := by split_ifs at hc1 hc2 <;> omega
    rw [if_neg (by omega), if_neg (by omega), if_neg (by omega), ofNat_eq (b := b) (by omega),
      ofNat_eq (b := c) (by omega), ofNat_eq (b := d) (by omega), ofNat_eq (b := e) (by omega)]
    rfl

theorem toNat_ofNat_byte {n : Nat} (h : n < 256) : (UInt8.ofNat n).toNat = n := by
  rw [UInt8.toNat_ofNat', Nat.mod_eq_of_lt h]

theorem continue?_ofNat_cons {n low high payload good v : Nat} {rest : List UInt8} (hlow : low ≤ v)
    (hhigh : v ≤ high) (hv : v < 256) :
    continue? (n + 1) low high payload good (UInt8.ofNat v :: rest) =
      continue? n 0x80 0xBF (payload * 64 + v % 64) (good + 1) rest := by
  rw [continue?, toNat_ofNat_byte hv, if_pos ⟨hlow, hhigh⟩]

/-- The lead byte of a character, and what its other bytes are read as, whatever follows them. -/
theorem utf8EncodeChar_eq_cons (c : Char) : ∃ b bs l, String.utf8EncodeChar c = b :: bs ∧
    lead? b.toNat = some l ∧ l.following = bs.length ∧
    ∀ rest, continue? l.following l.low l.high l.payload 0 (bs ++ rest) = .ok c.val.toNat := by
  have hvalid : c.val.toNat < 0xD800 ∨ 0xDFFF < c.val.toNat ∧ c.val.toNat < 0x110000 := c.valid
  generalize hn : c.val.toNat = n at hvalid
  simp only [String.utf8EncodeChar, hn]
  split_ifs with h1 h2 h3
  · have hlead : (UInt8.ofNat n).toNat = n := toNat_ofNat_byte (by omega)
    refine ⟨_, _, _, rfl, lead?_eq_some_iff.mpr (Or.inl ⟨by omega, rfl⟩), rfl, fun rest => ?_⟩
    rw [continue?_zero_eq_ok, hlead]
  · have hlead : (UInt8.ofNat (n / 64 % 32 + 192)).toNat = n / 64 % 32 + 192 :=
      toNat_ofNat_byte (by omega)
    refine ⟨_, _, _, rfl,
      lead?_eq_some_iff.mpr (Or.inr (Or.inl ⟨by omega, by omega, rfl⟩)), rfl, fun rest => ?_⟩
    rw [List.cons_append,
      continue?_ofNat_cons (by simp only; omega) (by simp only; omega) (by omega),
      continue?_zero_eq_ok, hlead]
    simp only
    omega
  · have hlead : (UInt8.ofNat (n / 4096 % 16 + 224)).toNat = n / 4096 % 16 + 224 :=
      toNat_ofNat_byte (by omega)
    refine ⟨_, _, _, rfl,
      lead?_eq_some_iff.mpr (Or.inr (Or.inr (Or.inl ⟨by omega, by omega, rfl⟩))), rfl,
      fun rest => ?_⟩
    rw [List.cons_append,
      continue?_ofNat_cons (by simp only [hlead]; split_ifs <;> omega)
        (by simp only [hlead]; split_ifs <;> omega) (by omega),
      List.cons_append, continue?_ofNat_cons (by omega) (by omega) (by omega),
      continue?_zero_eq_ok, hlead]
    simp only
    omega
  · have hlead : (UInt8.ofNat (n / 262144 % 8 + 240)).toNat = n / 262144 % 8 + 240 :=
      toNat_ofNat_byte (by omega)
    refine ⟨_, _, _, rfl,
      lead?_eq_some_iff.mpr (Or.inr (Or.inr (Or.inr ⟨by omega, by omega, rfl⟩))), rfl,
      fun rest => ?_⟩
    rw [List.cons_append,
      continue?_ofNat_cons (by simp only [hlead]; split_ifs <;> omega)
        (by simp only [hlead]; split_ifs <;> omega) (by omega),
      List.cons_append, continue?_ofNat_cons (by omega) (by omega) (by omega),
      List.cons_append, continue?_ofNat_cons (by omega) (by omega) (by omega),
      continue?_zero_eq_ok, hlead]
    simp only
    omega

theorem decodeFrom_cons {b : UInt8} {rest : List UInt8} {l : Lead} {code : Nat} {start : Nat}
    (hl : lead? b.toNat = some l)
    (hc : continue? l.following l.low l.high l.payload 0 rest = .ok code) :
    decodeFrom start (b :: rest) =
      (decodeFrom (start + 1 + l.following) (rest.drop l.following)).map
      (Char.ofNat code :: ·) := by
  rw [decodeFrom, hl]
  simp only [hc]
  cases decodeFrom (start + 1 + l.following) (rest.drop l.following) <;> rfl

theorem decodeFrom_encode (cs : List Char) (start : Nat) :
    decodeFrom start (encode cs) = .ok cs := by
  induction cs generalizing start with
  | nil => simp [encode, decodeFrom]
  | cons c cs ih =>
    obtain ⟨b, bs, l, hbytes, hl, hfollowing, hc⟩ := utf8EncodeChar_eq_cons c
    have hsplit : encode (c :: cs) = b :: (bs ++ encode cs) := by simp [encode, hbytes]
    rw [hsplit, decodeFrom_cons hl (hc _), hfollowing, List.drop_left, ih]
    simp [Except.map]

theorem decodeFrom_eq_ok {bytes : List UInt8} {start : Nat} {cs : List Char}
    (h : decodeFrom start bytes = .ok cs) : bytes = encode cs := by
  induction start, bytes using decodeFrom.induct generalizing cs with
  | case1 start =>
    rw [decodeFrom] at h
    obtain rfl := Except.ok.inj h
    rfl
  | case2 start b rest hl => simp [decodeFrom, hl] at h
  | case3 start b rest l hl flaw good hc => simp [decodeFrom, hl, hc] at h
  | case4 start b rest l hl code hc e he ih =>
    rw [decodeFrom_cons hl hc, he] at h
    cases h
  | case5 start b rest l hl code hc cs' hcs ih =>
    rw [decodeFrom_cons hl hc, hcs] at h
    obtain rfl := Except.ok.inj h
    rw [eq_utf8EncodeChar_append hl hc, ih hcs]
    simp [encode]

/-- Decoding finds the text that the bytes encode, and there is at most one. -/
theorem decode_eq_ok_iff {bytes : List UInt8} {cs : List Char} :
    decode bytes = .ok cs ↔ bytes = encode cs := by
  constructor
  · exact decodeFrom_eq_ok
  · rintro rfl
    exact decodeFrom_encode cs 0

end WidgetView.Text.Utf8
