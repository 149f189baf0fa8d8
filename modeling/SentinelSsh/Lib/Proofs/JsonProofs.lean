import SentinelSsh.Lib.Json

/-!
# Reading back the strings of JSON

The round trip goes bottom up: hexadecimal digits, `\u` escapes, one escaped character, a string.
-/

namespace Json

/-! ## Characters -/

theorem hexVal_hexDigit : ∀ n < 16, hexVal (hexDigit n) = some n := by decide

theorem readHex4_hex4 {n : Nat} (hn : n < 65536) (r : List Char) :
    readHex4 (hexDigit (n / 4096 % 16) :: hexDigit (n / 256 % 16) :: hexDigit (n / 16 % 16) ::
      hexDigit (n % 16) :: r) = some (n, r) := by
  have hmod : ∀ m : Nat, m % 16 < 16 := fun m => Nat.mod_lt m (by omega)
  simp only [readHex4, hexVal_hexDigit _ (hmod _)]
  have hsum : n / 4096 % 16 * 4096 + n / 256 % 16 * 256 + n / 16 % 16 * 16 + n % 16 = n := by omega
  rw [hsum]

theorem toNat_cases (c : Char) :
    c.toNat < 0xD800 ∨ (0xE000 ≤ c.toNat ∧ c.toNat < 0x110000) := by
  have h := c.valid
  rcases h with h | ⟨h1, h2⟩
  · exact Or.inl h
  · exact Or.inr ⟨h1, h2⟩

/-- A character of the basic plane reads back from its code unit. -/
theorem readUnicode_bmp {c : Char} (hc : c.toNat < 65536) (r : List Char) :
    readUnicode ((hex4 c.toNat).drop 2 ++ r) = some (c, r) := by
  simp only [hex4, List.drop_succ_cons, List.drop_zero, List.cons_append, List.nil_append, readUnicode,
    readHex4_hex4 hc]
  rcases toNat_cases c with h | ⟨h, -⟩
  · rw [if_neg (by omega), if_neg (by omega), Char.ofNat_toNat]
  · rw [if_neg (by omega), if_neg (by omega), Char.ofNat_toNat]

theorem readUnicode_pair {hi lo : Nat} (hhi : 0xD800 ≤ hi ∧ hi < 0xDC00) (hlo : 0xDC00 ≤ lo ∧ lo < 0xE000)
    (r : List Char) : readUnicode ((hex4 hi).drop 2 ++ (hex4 lo ++ r)) =
      some (Char.ofNat (0x10000 + (hi - 0xD800) * 1024 + (lo - 0xDC00)), r) := by
  have h1 : hi < 65536 := by omega
  have h2 : lo < 65536 := by omega
  simp only [hex4, List.drop_succ_cons, List.drop_zero, List.cons_append, List.nil_append, readUnicode,
    readHex4_hex4 h1, readHex4_hex4 h2]
  rw [if_pos hhi, if_pos hlo]

/-- A character of a higher plane reads back from its surrogate pair. -/
theorem readUnicode_astral {c : Char} (hc : 65536 ≤ c.toNat) (r : List Char) :
    readUnicode ((hex4 (0xD800 + (c.toNat - 0x10000) / 1024)).drop 2 ++
      (hex4 (0xDC00 + (c.toNat - 0x10000) % 1024) ++ r)) = some (c, r) := by
  have hlt : c.toNat < 0x110000 := by rcases toNat_cases c with h | h <;> omega
  obtain ⟨k, hk⟩ : ∃ k, c.toNat = 0x10000 + k := ⟨c.toNat - 0x10000, by omega⟩
  have hsub : c.toNat - 0x10000 = k := by omega
  rw [hsub, readUnicode_pair ⟨by omega, by omega⟩ ⟨by omega, by omega⟩]
  have hsum : 0x10000 + (0xD800 + k / 1024 - 0xD800) * 1024 + (0xDC00 + k % 1024 - 0xDC00) =
      c.toNat := by omega
  rw [hsum, Char.ofNat_toNat]

theorem readEscape_u (cs : List Char) : readEscape ('u' :: cs) = readUnicode cs := by
  simp [readEscape]

theorem readStr_backslash (n : Nat) (cs : List Char) :
    readStr (n + 1) ('\\' :: cs) = match readEscape cs with
      | none => none
      | some (d, r') => mapRead (d :: ·) (readStr n r') := by
  cases h : readEscape cs with
  | none => rw [readStr, if_neg (by decide), if_pos rfl, h]
  | some p => rw [readStr, if_neg (by decide), if_pos rfl, h]

theorem readStr_hex4 {n m : Nat} {c : Char} {r r' : List Char}
    (h : readUnicode ((hex4 m).drop 2 ++ r) = some (c, r')) :
    readStr (n + 1) (hex4 m ++ r) = mapRead (c :: ·) (readStr n r') := by
  have hsplit : hex4 m ++ r = '\\' :: 'u' :: ((hex4 m).drop 2 ++ r) := by simp [hex4]
  rw [hsplit, readStr_backslash, readEscape_u, h]

/-- What a character is written as: a short escape that reads back, one or two `\u` escapes, or
itself. -/
theorem escape_cases (ascii : Bool) (c : Char) :
    (∃ d, escape ascii c = ['\\', d] ∧ d ≠ Char.ofNat 0 ∧ ∀ r, readEscape (d :: r) = some (c, r)) ∨
      (c.toNat < 0x10000 ∧ escape ascii c = hex4 c.toNat) ∨
      (0x10000 ≤ c.toNat ∧ escape ascii c =
        hex4 (0xD800 + (c.toNat - 0x10000) / 1024) ++ hex4 (0xDC00 + (c.toNat - 0x10000) % 1024)) ∨
      (escape ascii c = [c] ∧ c ≠ '"' ∧ c ≠ '\\' ∧ ¬ c.toNat < 32) := by
  by_cases h₁ : c = '"'
  · exact Or.inl ⟨'"', by rw [escape, if_pos h₁], by decide, fun r => by rw [h₁]; rfl⟩
  by_cases h₂ : c = '\\'
  · exact Or.inl ⟨'\\', by rw [escape, if_neg h₁, if_pos h₂], by decide, fun r => by rw [h₂]; rfl⟩
  rw [escape, if_neg h₁, if_neg h₂]
  by_cases h₃ : c = '\n'
  · exact Or.inl ⟨'n', by rw [if_pos h₃], by decide, fun r => by rw [h₃]; rfl⟩
  by_cases h₄ : c = '\r'
  · exact Or.inl ⟨'r', by rw [if_neg h₃, if_pos h₄], by decide, fun r => by rw [h₄]; rfl⟩
  by_cases h₅ : c = '\t'
  · exact Or.inl ⟨'t', by rw [if_neg h₃, if_neg h₄, if_pos h₅], by decide, fun r => by rw [h₅]; rfl⟩
  rw [if_neg h₃, if_neg h₄, if_neg h₅]
  by_cases h₆ : c.toNat = 12
  · have hc : c = Char.ofNat 12 := by rw [← h₆, Char.ofNat_toNat]
    exact Or.inl ⟨'f', by rw [if_pos h₆], by decide, fun r => by rw [hc]; rfl⟩
  by_cases h₇ : c.toNat = 8
  · have hc : c = Char.ofNat 8 := by rw [← h₇, Char.ofNat_toNat]
    exact Or.inl ⟨'b', by rw [if_neg h₆, if_pos h₇], by decide, fun r => by rw [hc]; rfl⟩
  rw [if_neg h₆, if_neg h₇]
  by_cases h₈ : c.toNat < 32
  · exact Or.inr (Or.inl ⟨by omega, if_pos h₈⟩)
  rw [if_neg h₈]
  by_cases h₉ : (ascii && 126 < c.toNat) = true
  · rw [if_pos h₉]
    by_cases h₁₀ : c.toNat < 0x10000
    · exact Or.inr (Or.inl ⟨h₁₀, if_pos h₁₀⟩)
    · exact Or.inr (Or.inr (Or.inl ⟨not_lt.mp h₁₀, if_neg h₁₀⟩))
  · exact Or.inr (Or.inr (Or.inr ⟨if_neg h₉, h₁, h₂, h₈⟩))

/-- One escaped character reads back as itself. -/
theorem readStr_escape (ascii : Bool) (n : Nat) (c : Char) (r : List Char) :
    readStr (n + 1) (escape ascii c ++ r) = mapRead (c :: ·) (readStr n r) := by
  rcases escape_cases ascii c with ⟨d, h, -, hread⟩ | ⟨hlt, h⟩ | ⟨hle, h⟩ | ⟨h, hquote, hslash, hctl⟩
  · rw [h, List.cons_append, List.singleton_append, readStr_backslash, hread]
  · rw [h]
    exact readStr_hex4 (readUnicode_bmp hlt r)
  · rw [h, List.append_assoc]
    exact readStr_hex4 (readUnicode_astral hle r)
  · rw [h, List.singleton_append, readStr, if_neg hquote, if_neg hslash, if_neg hctl]

/-! ## Strings -/

/-- The body of a JSON string reads back, with one unit of fuel for each character and one for the
closing quote. -/
theorem readStr_flatMap (ascii : Bool) (s r : List Char) (n : Nat) (hn : s.length < n) :
    readStr n (s.flatMap (escape ascii) ++ '"' :: r) = some (s, r) := by
  induction s generalizing n with
  | nil =>
    obtain ⟨m, rfl⟩ : ∃ m, n = m + 1 := ⟨n - 1, by simp at hn; omega⟩
    simp [readStr]
  | cons c s ih =>
    obtain ⟨m, rfl⟩ : ∃ m, n = m + 1 := ⟨n - 1, by simp at hn; omega⟩
    rw [List.flatMap_cons, List.append_assoc, readStr_escape, ih m (by simpa using hn)]
    rfl

theorem length_le_flatMap_escape (ascii : Bool) (s : List Char) :
    s.length ≤ (s.flatMap (escape ascii)).length := by
  induction s with
  | nil => simp
  | cons c s ih =>
    have hc : 1 ≤ (escape ascii c).length := by
      rcases escape_cases ascii c with ⟨d, h, -⟩ | ⟨-, h⟩ | ⟨-, h⟩ | ⟨h, -⟩
      all_goals simp [h, hex4]
    simp only [List.flatMap_cons, List.length_append, List.length_cons]
    omega

theorem skipWs_cons_of_not {c : Char} {cs : List Char} (h : ¬ (c = ' ' ∨ c = '\t' ∨ c = '\n' ∨ c = '\r')) :
    skipWs (c :: cs) = c :: cs := by
  rw [skipWs, if_neg h]

/-! ## What is never written -/

theorem hexDigit_ne_nul : ∀ n < 16, hexDigit n ≠ Char.ofNat 0 := by decide

theorem nul_notMem_hex4 (n : Nat) : Char.ofNat 0 ∉ hex4 n := by
  have hdigit : ∀ m : Nat, Char.ofNat 0 ≠ hexDigit (m % 16) := fun m =>
    (hexDigit_ne_nul _ (Nat.mod_lt m (by omega))).symm
  simp [hex4, hdigit]

/-- A control character is never written as it is. -/
theorem nul_notMem_escape (ascii : Bool) (c : Char) : Char.ofNat 0 ∉ escape ascii c := by
  rcases escape_cases ascii c with ⟨d, h, hd, -⟩ | ⟨-, h⟩ | ⟨-, h⟩ | ⟨h, -, -, hctl⟩
  · rw [h, List.mem_pair]
    rintro (hslash | hnul)
    · exact absurd hslash (by decide)
    · exact hd hnul.symm
  · rw [h]
    exact nul_notMem_hex4 _
  · rw [h, List.mem_append]
    rintro (hhi | hlo)
    · exact nul_notMem_hex4 _ hhi
    · exact nul_notMem_hex4 _ hlo
  · rw [h, List.mem_singleton]
    rintro rfl
    exact hctl (by decide)

theorem nul_notMem_renderStr (ascii : Bool) (s : String) : Char.ofNat 0 ∉ renderStr ascii s := by
  simp [renderStr, nul_notMem_escape]

theorem nul_notMem_commaSep {xs : List (List Char)} (h : ∀ x ∈ xs, Char.ofNat 0 ∉ x) :
    Char.ofNat 0 ∉ commaSep xs := by
  induction xs with
  | nil => simp [commaSep]
  | cons x xs ih =>
    have hx := h x (by simp)
    cases xs with
    | nil => simpa [commaSep] using hx
    | cons y ys =>
      have hrest := ih fun z hz => h z (List.mem_cons_of_mem _ hz)
      simp [commaSep, hx, hrest]

/-- A list of strings is written without U+0000, whatever the strings hold. -/
theorem nul_notMem_dumps (xs : List String) : Char.ofNat 0 ∉ (dumps xs).toList := by
  have hbody : Char.ofNat 0 ∉ commaSep (xs.map (renderStr true)) := nul_notMem_commaSep fun x hx => by
    obtain ⟨s, -, rfl⟩ := List.mem_map.mp hx
    exact nul_notMem_renderStr true s
  simp [dumps, hbody]

end Json
