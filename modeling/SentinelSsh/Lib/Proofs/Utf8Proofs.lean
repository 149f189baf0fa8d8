import SentinelSsh.Lib.Utf8

/-!
# Decoding what was encoded

The bytes of a character lead the decoder through the states of one sequence and back to its start, so
the decoder gives back every text that was encoded. The strict decoder takes exactly the bytes of texts.
-/

namespace Utf8

/-! ## One character -/

theorem toNat_lt_of_char (c : Char) : c.toNat < 0xD800 ∨ 0xDFFF < c.toNat ∧ c.toNat < 0x110000 :=
  c.valid

/-- A byte below 0x80 is a character. -/
theorem decodeFrom_one {n : Nat} (h : n < 0x80) (rest : List UInt8) :
    decodeFrom none (UInt8.ofNat n :: rest) = Char.ofNat n :: decodeFrom none rest := by
  have hn : (UInt8.ofNat n).toNat = n := by
    rw [UInt8.toNat_ofNat']
    omega
  rw [decodeFrom, step, start, hn, if_pos h]
  rfl

theorem toNat_continuation {n : Nat} (hn : n < 64) : (UInt8.ofNat (n + 0x80)).toNat = n + 0x80 := by
  rw [UInt8.toNat_ofNat']
  omega

theorem accepts_iff {need lo hi acc n : Nat} (hn : n < 64) :
    (Partial.mk need lo hi acc).accepts (UInt8.ofNat (n + 0x80)) = true ↔ lo ≤ n + 0x80 ∧ n + 0x80 ≤ hi := by
  rw [Partial.accepts, toNat_continuation hn, Bool.and_eq_true, decide_eq_true_iff, decide_eq_true_iff]

/-- A byte that continues a sequence and is not its last one. -/
theorem decodeFrom_more {need lo hi acc n : Nat} (hn : n < 64) (hlo : lo ≤ n + 0x80) (hhi : n + 0x80 ≤ hi)
    (hneed : need ≠ 1) (rest : List UInt8) :
    decodeFrom (some ⟨need, lo, hi, acc⟩) (UInt8.ofNat (n + 0x80) :: rest) =
      decodeFrom (some ⟨need - 1, 0x80, 0xBF, acc * 64 + n⟩) rest := by
  rw [decodeFrom, step, if_pos ((accepts_iff hn).mpr ⟨hlo, hhi⟩)]
  dsimp only
  rw [if_neg hneed, toNat_continuation hn, Nat.add_sub_cancel]
  rfl

/-- The last byte of a sequence. -/
theorem decodeFrom_last {lo hi acc n : Nat} (hn : n < 64) (hlo : lo ≤ n + 0x80) (hhi : n + 0x80 ≤ hi)
    (rest : List UInt8) :
    decodeFrom (some ⟨1, lo, hi, acc⟩) (UInt8.ofNat (n + 0x80) :: rest) =
      Char.ofNat (acc * 64 + n) :: decodeFrom none rest := by
  rw [decodeFrom, step, if_pos ((accepts_iff hn).mpr ⟨hlo, hhi⟩)]
  dsimp only
  rw [if_pos rfl, toNat_continuation hn, Nat.add_sub_cancel]
  rfl

/-- A byte that opens a sequence. -/
theorem decodeFrom_open {b : UInt8} {p : Partial} (hstart : start b = ([], some p)) (rest : List UInt8) :
    decodeFrom none (b :: rest) = decodeFrom (some p) rest := by
  rw [decodeFrom, step, hstart]
  rfl

/-! ## First bytes -/

theorem start_two {v : Nat} (hlo : 0x80 ≤ v) (hhi : v < 0x800) :
    start (UInt8.ofNat (v / 64 % 32 + 192)) = ([], some ⟨1, 0x80, 0xBF, v / 64⟩) := by
  have hn : (UInt8.ofNat (v / 64 % 32 + 192)).toNat = v / 64 + 192 := by
    rw [UInt8.toNat_ofNat']
    omega
  rw [start, hn, if_neg (by omega), if_neg (by omega), if_pos (by omega), Nat.add_sub_cancel]

/-- The second byte is restricted where a shorter form or a surrogate would be encoded. -/
theorem exists_start_three {v : Nat} (hlo : 0x800 ≤ v) (hhi : v < 0x10000) (hsurrogate : v < 0xD800 ∨ 0xDFFF < v) :
    ∃ lo hi, start (UInt8.ofNat (v / 4096 % 16 + 224)) = ([], some ⟨2, lo, hi, v / 4096⟩) ∧
      lo ≤ v / 64 % 64 + 0x80 ∧ v / 64 % 64 + 0x80 ≤ hi := by
  have hn : (UInt8.ofNat (v / 4096 % 16 + 224)).toNat = v / 4096 + 224 := by
    rw [UInt8.toNat_ofNat']
    omega
  rw [start, hn, if_neg (by omega), if_neg (by omega), if_neg (by omega)]
  by_cases h0 : v / 4096 = 0
  · refine ⟨0xA0, 0xBF, ?_, by omega, by omega⟩
    rw [if_pos (by omega), h0]
  by_cases hD : v / 4096 = 13
  · refine ⟨0x80, 0x9F, ?_, by omega, by omega⟩
    rw [if_neg (by omega), if_pos (by omega), hD]
  · refine ⟨0x80, 0xBF, ?_, by omega, by omega⟩
    rw [if_neg (by omega), if_neg (by omega), if_pos (by omega), Nat.add_sub_cancel]

/-- The second byte is restricted where a shorter form or a number that is too large would be encoded. -/
theorem exists_start_four {v : Nat} (hlo : 0x10000 ≤ v) (hhi : v < 0x110000) :
    ∃ lo hi, start (UInt8.ofNat (v / 262144 % 8 + 240)) = ([], some ⟨3, lo, hi, v / 262144⟩) ∧
      lo ≤ v / 4096 % 64 + 0x80 ∧ v / 4096 % 64 + 0x80 ≤ hi := by
  have hn : (UInt8.ofNat (v / 262144 % 8 + 240)).toNat = v / 262144 + 240 := by
    rw [UInt8.toNat_ofNat']
    omega
  rw [start, hn, if_neg (by omega), if_neg (by omega), if_neg (by omega), if_neg (by omega),
    if_neg (by omega), if_neg (by omega)]
  by_cases h0 : v / 262144 = 0
  · refine ⟨0x90, 0xBF, ?_, by omega, by omega⟩
    rw [if_pos (by omega), h0]
  by_cases h4 : v / 262144 = 4
  · refine ⟨0x80, 0x8F, ?_, by omega, by omega⟩
    rw [if_neg (by omega), if_neg (by omega), if_pos (by omega), h4]
  · refine ⟨0x80, 0xBF, ?_, by omega, by omega⟩
    rw [if_neg (by omega), if_pos (by omega), Nat.add_sub_cancel]

/-- The decoder reads the bytes of a character as this character. -/
theorem decodeFrom_encodeChar (c : Char) (rest : List UInt8) :
    decodeFrom none (String.utf8EncodeChar c ++ rest) = c :: decodeFrom none rest := by
  have hvalid := toNat_lt_of_char c
  have hchar : Char.ofNat c.toNat = c := Char.ofNat_toNat c
  have hval : c.val.toNat = c.toNat := rfl
  unfold String.utf8EncodeChar
  rw [hval]
  generalize c.toNat = v at hvalid hchar
  dsimp only
  -- One, two, three or four bytes.
  split_ifs with h1 h2 h3
  · rw [List.singleton_append, decodeFrom_one (by omega), hchar]
  · have hsum : v / 64 * 64 + v % 64 = v := by omega
    rw [List.cons_append, List.singleton_append, decodeFrom_open (start_two (by omega) (by omega)),
      decodeFrom_last (by omega) (by omega) (by omega), hsum, hchar]
  · have hsum : (v / 4096 * 64 + v / 64 % 64) * 64 + v % 64 = v := by omega
    obtain ⟨lo, hi, hopen, hlo, hhi⟩ := exists_start_three (v := v) (by omega) (by omega) (by omega)
    rw [List.cons_append, List.cons_append, List.singleton_append, decodeFrom_open hopen,
      decodeFrom_more (by omega) hlo hhi (by decide),
      decodeFrom_last (by omega) (by omega) (by omega), hsum, hchar]
  · have hsum : ((v / 262144 * 64 + v / 4096 % 64) * 64 + v / 64 % 64) * 64 + v % 64 = v := by omega
    obtain ⟨lo, hi, hopen, hlo, hhi⟩ := exists_start_four (v := v) (by omega) (by omega)
    rw [List.cons_append, List.cons_append, List.cons_append, List.singleton_append,
      decodeFrom_open hopen, decodeFrom_more (by omega) hlo hhi (by decide),
      decodeFrom_more (by omega) (by omega) (by omega) (by decide),
      decodeFrom_last (by omega) (by omega) (by omega), hsum, hchar]

/-! ## Texts -/

theorem decodeFrom_flatMap (cs : List Char) :
    decodeFrom none (cs.flatMap String.utf8EncodeChar) = cs := by
  induction cs with
  | nil => rfl
  | cons c cs ih => rw [List.flatMap_cons, decodeFrom_encodeChar, ih]

/-- What was encoded is decoded again. -/
theorem decode_encode (s : String) : decode (encode s) = s.toList :=
  decodeFrom_flatMap s.toList

/-- The strict decoder takes the bytes of a text, and nothing else. -/
theorem decodeStrict_eq_some {bs : List UInt8} {s : String} :
    decodeStrict bs = some s ↔ bs = encode s := by
  have hencode : s.toByteArray = (encode s).toByteArray := String.utf8Encode_toList.symm
  have hbytes : (⟨bs.toArray⟩ : ByteArray) = bs.toByteArray := by
    rw [← List.data_toByteArray]
  unfold decodeStrict String.fromUTF8?
  constructor
  · intro h
    split_ifs at h with hvalid
    have hs : (⟨bs.toArray⟩ : ByteArray) = s.toByteArray := by
      rw [← Option.some.inj h]
      rfl
    exact List.toByteArray_inj.mp (hbytes.symm.trans (hs.trans hencode))
  · intro h
    have hs : (⟨bs.toArray⟩ : ByteArray) = s.toByteArray := by
      rw [hbytes, h, hencode]
    have hvalid : (⟨bs.toArray⟩ : ByteArray).IsValidUTF8 := by
      rw [hs, hencode]
      exact ⟨s.toList, rfl⟩
    rw [dif_pos hvalid]
    exact congrArg some (String.toByteArray_inj.mp hs)

/-- The bytes of a text are also decoded with replacement to this text. -/
theorem decode_of_decodeStrict {bs : List UInt8} {s : String} (h : decodeStrict bs = some s) :
    decode bs = s.toList := by
  rw [decodeStrict_eq_some.mp h, decode_encode]

/-- Bytes are those of a text exactly if decoding them with replacement loses nothing. -/
theorem exists_encode_iff {bs : List UInt8} :
    (∃ s, bs = encode s) ↔ (decode bs).flatMap String.utf8EncodeChar = bs := by
  constructor
  · rintro ⟨s, rfl⟩
    rw [decode_encode]
    rfl
  · intro h
    refine ⟨String.ofList (decode bs), ?_⟩
    rw [encode, String.toList_ofList, h]

end Utf8
