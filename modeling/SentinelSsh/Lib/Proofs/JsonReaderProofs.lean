import SentinelSsh.Lib.Escapes
import SentinelSsh.Lib.JsonReader
import SentinelSsh.Lib.Proofs.JsonProofs

/-!
# What was written reads back

`load_render`: the text of a value reads back as the value, whichever way its strings were escaped. The
induction is over the value, with the length of the text as the bound on the fuel.
-/

namespace Json

open Python

/-! ## Numbers -/

/-- What follows a number does not go on with it. -/
def Stops (r : List Char) : Prop :=
  ∀ c ∈ r.head?, c.isDigit = false ∧ c ≠ '.'

theorem stops_cons {c : Char} (hdigit : c.isDigit = false) (hpoint : c ≠ '.') (r : List Char) :
    Stops (c :: r) := by
  intro d hd
  obtain rfl := Option.some.inj hd
  exact ⟨hdigit, hpoint⟩

theorem toDigits_zero_or (n : Nat) : n = 0 ∨ ∃ c cs, Nat.toDigits 10 n = c :: cs ∧ c ≠ '0' := by
  induction n using Nat.strongRecOn with
  | ind n ih =>
    rcases Nat.lt_or_ge n 10 with hlt | hge
    · rcases Nat.eq_zero_or_pos n with hzero | hpos
      · exact Or.inl hzero
      · refine Or.inr ⟨n.digitChar, [], Nat.toDigits_of_lt_base hlt, ?_⟩
        have hall : ∀ m < 10, 0 < m → m.digitChar ≠ '0' := by decide
        exact hall n hlt hpos
    · rcases ih (n / 10) (by omega) with hzero | ⟨c, cs, hdigits, hc⟩
      · omega
      · exact Or.inr ⟨c, cs ++ [(n % 10).digitChar],
          by rw [Nat.toDigits_of_base_le (by omega) hge, hdigits, List.cons_append], hc⟩

/-- Digits end where something else begins. -/
theorem takeWhile_digits {ds r : List Char} (hds : ∀ c ∈ ds, c.isDigit = true)
    (hr : ∀ c ∈ r.head?, c.isDigit = false) :
    (ds ++ r).takeWhile Char.isDigit = ds ∧ (ds ++ r).dropWhile Char.isDigit = r := by
  have hnone : r.takeWhile Char.isDigit = [] ∧ r.dropWhile Char.isDigit = r := by
    cases r with
    | nil => exact ⟨rfl, rfl⟩
    | cons c r =>
      have hc := hr c rfl
      exact ⟨List.takeWhile_cons_of_neg (by simp [hc]), List.dropWhile_cons_of_neg (by simp [hc])⟩
  rw [List.takeWhile_append_of_pos hds, List.dropWhile_append_of_pos hds, hnone.1, hnone.2]
  exact ⟨List.append_nil ds, rfl⟩

theorem readDigits_toDigits (n : Nat) {r : List Char} (hr : ∀ c ∈ r.head?, c.isDigit = false) :
    readDigits (Nat.toDigits 10 n ++ r) = some (Nat.toDigits 10 n, r) := by
  rcases toDigits_zero_or n with rfl | ⟨c, cs, hdigits, hc⟩
  · rfl
  · have hall : ∀ d ∈ c :: cs, d.isDigit = true := fun d hd =>
      Nat.isDigit_of_mem_toDigits (b := 10) (n := n) (by decide) (by decide) (hdigits ▸ hd)
    obtain ⟨htake, hdrop⟩ := takeWhile_digits hall hr
    rw [hdigits]
    unfold readDigits
    split
    · next heq =>
      rw [List.cons_append] at heq
      exact absurd (List.cons.inj heq).1 hc
    · rw [htake, hdrop]
      rfl

theorem readUnsigned_toDigits (n : Nat) {r : List Char} (hr : Stops r) :
    readUnsigned (Nat.toDigits 10 n ++ r) = some (.int n, r) := by
  rw [readUnsigned, readDigits_toDigits n fun c hc => (hr c hc).1]
  split
  · next heq => cases heq
  · next heq =>
    obtain ⟨-, rfl⟩ := Prod.mk.inj (Option.some.inj heq)
    exact absurd rfl (hr '.' rfl).2
  · next heq =>
    obtain ⟨rfl, rfl⟩ := Prod.mk.inj (Option.some.inj heq)
    rw [Nat.ofDigitChars_ten_toDigits]

theorem readNegative_toDigits (n : Nat) {r : List Char} (hr : Stops r) :
    readNegative (Nat.toDigits 10 n ++ r) = some (.int (-(n : Int)), r) := by
  rw [readNegative, readDigits_toDigits n fun c hc => (hr c hc).1]
  split
  · next heq => cases heq
  · next heq =>
    obtain ⟨-, rfl⟩ := Prod.mk.inj (Option.some.inj heq)
    exact absurd rfl (hr '.' rfl).2
  · next heq =>
    obtain ⟨rfl, rfl⟩ := Prod.mk.inj (Option.some.inj heq)
    rw [Nat.ofDigitChars_ten_toDigits]

/-- The decimals `repr` writes for `frac` thousandths. -/
def decimals (frac : Nat) : List Nat :=
  if frac % 100 = 0 then [frac / 100]
  else if frac % 10 = 0 then [frac / 100, frac / 10 % 10]
  else [frac / 100, frac / 10 % 10, frac % 10]

/-- They are digits, and stand for the thousandths. -/
theorem decimals_spec : ∀ frac < 1000, (∀ d ∈ decimals frac, d < 10) ∧ (decimals frac).length ≤ 3 ∧
    decimals frac ≠ [] ∧
    Nat.ofDigitChars 10 ((decimals frac).map Nat.digitChar) 0 * 10 ^ (3 - (decimals frac).length) = frac := by
  intro frac hfrac
  unfold decimals
  have hhundreds : frac / 100 < 10 := by omega
  have htens : frac / 10 % 10 < 10 := by omega
  have hones : frac % 10 < 10 := by omega
  split_ifs with h₁ h₂
  · refine ⟨by simpa using hhundreds, by simp, by simp, ?_⟩
    simp only [List.map_cons, List.map_nil, Nat.ofDigitChars_cons_digitChar_of_lt_ten hhundreds,
      Nat.ofDigitChars_nil, List.length_singleton]
    omega
  · refine ⟨by simp [hhundreds, htens], by simp, by simp, ?_⟩
    simp only [List.map_cons, List.map_nil, Nat.ofDigitChars_cons_digitChar_of_lt_ten hhundreds,
      Nat.ofDigitChars_cons_digitChar_of_lt_ten htens, Nat.ofDigitChars_nil, List.length_cons,
      List.length_nil]
    omega
  · refine ⟨by simp [hhundreds, htens, hones], by simp, by simp, ?_⟩
    simp only [List.map_cons, List.map_nil, Nat.ofDigitChars_cons_digitChar_of_lt_ten hhundreds,
      Nat.ofDigitChars_cons_digitChar_of_lt_ten htens, Nat.ofDigitChars_cons_digitChar_of_lt_ten hones,
      Nat.ofDigitChars_nil, List.length_cons, List.length_nil]
    omega

theorem toList_join_digits {ds : List Nat} (hds : ∀ d ∈ ds, d < 10) :
    (String.join (ds.map toString)).toList = ds.map Nat.digitChar := by
  induction ds with
  | nil => rfl
  | cons d ds ih =>
    have hd : (toString d).toList = [d.digitChar] := by
      rw [Nat.toString_eq_ofList_toDigits, String.toList_ofList, Nat.toDigits_of_lt_base (hds d (by simp))]
    rw [List.map_cons, List.map_cons, String.join_cons, String.toList_append, hd,
      ih fun e he => hds e (List.mem_cons_of_mem _ he)]
    rfl

theorem toList_renderFloat (n : Nat) : (renderFloat n).toList =
    Nat.toDigits 10 (n / 1000) ++ '.' :: (decimals (n % 1000)).map Nat.digitChar := by
  have hdigits := (decimals_spec (n % 1000) (Nat.mod_lt n (by decide))).1
  have hfloat : renderFloat n =
      toString (n / 1000) ++ "." ++ String.join ((decimals (n % 1000)).map toString) := rfl
  rw [hfloat, String.toList_append, String.toList_append, toList_join_digits hdigits,
    Nat.toString_eq_ofList_toDigits, String.toList_ofList, List.append_assoc]
  rfl

theorem isDigit_digitChar : ∀ d < 10, (Nat.digitChar d).isDigit = true := by decide

theorem readUnsigned_renderFloat (n : Nat) {r : List Char} (hr : Stops r) :
    readUnsigned ((renderFloat n).toList ++ r) = some (.float n, r) := by
  obtain ⟨hdigits, hlength, hne, hvalue⟩ := decimals_spec (n % 1000) (Nat.mod_lt n (by decide))
  have hall : ∀ c ∈ (decimals (n % 1000)).map Nat.digitChar, c.isDigit = true := by
    intro c hc
    obtain ⟨d, hd, rfl⟩ := List.mem_map.mp hc
    exact isDigit_digitChar d (hdigits d hd)
  obtain ⟨htake, hdrop⟩ := takeWhile_digits hall fun c hc => (hr c hc).1
  have hbad : ¬ ((decimals (n % 1000)).map Nat.digitChar = [] ∨
      3 < ((decimals (n % 1000)).map Nat.digitChar).length) := by
    rw [List.map_eq_nil_iff, List.length_map]
    exact not_or.mpr ⟨hne, by omega⟩
  rw [toList_renderFloat, List.append_assoc, List.cons_append, readUnsigned,
    readDigits_toDigits (n / 1000) fun c hc => by obtain rfl := Option.some.inj hc; rfl]
  simp only [readDecimals, htake, hdrop]
  rw [if_neg hbad, List.length_map, hvalue, Nat.ofDigitChars_ten_toDigits, Nat.div_add_mod']

/-! ## The front of a text -/

/-- A digit begins a number that is not negative. -/
theorem readValue_digit {c : Char} (hc : c.isDigit = true) (n : Nat) (cs : List Char) :
    readValue (n + 1) (c :: cs) = readUnsigned (c :: cs) := by
  rw [readValue]
  all_goals
    intro r heq
    obtain ⟨rfl, -⟩ := List.cons.inj heq
    exact absurd hc (by decide)

/-- A value begins with a character that is neither white space nor a closing bracket. -/
def Begins (y : List Char) : Prop :=
  ∃ c cs, y = c :: cs ∧ ¬ (c = ' ' ∨ c = '\t' ∨ c = '\n' ∨ c = '\r') ∧ c ≠ ']' ∧ c ≠ '}'

theorem begins_of_digits {n : Nat} {r : List Char} : Begins (Nat.toDigits 10 n ++ r) := by
  cases hdigits : Nat.toDigits 10 n with
  | nil => exact absurd hdigits Nat.toDigits_ne_nil
  | cons c cs =>
    have hc : c.isDigit = true :=
      Nat.isDigit_of_mem_toDigits (b := 10) (n := n) (by decide) (by decide) (by simp [hdigits])
    refine ⟨c, cs ++ r, rfl, ?_, ?_, ?_⟩
    · rintro (rfl | rfl | rfl | rfl)
      all_goals exact absurd hc (by decide)
    all_goals
      rintro rfl
      exact absurd hc (by decide)

theorem Begins.append {y : List Char} (h : Begins y) (r : List Char) : Begins (y ++ r) := by
  obtain ⟨c, cs, rfl, hc⟩ := h
  exact ⟨c, cs ++ r, rfl, hc⟩

theorem Begins.skipWs {y : List Char} (h : Begins y) : skipWs y = y := by
  obtain ⟨c, cs, rfl, hws, -⟩ := h
  exact skipWs_cons_of_not hws

theorem begins_cons {c : Char} (hc : ¬ (c = ' ' ∨ c = '\t' ∨ c = '\n' ∨ c = '\r') ∧ c ≠ ']' ∧ c ≠ '}')
    (cs : List Char) : Begins (c :: cs) :=
  ⟨c, cs, rfl, hc⟩

theorem skipWs_space (cs : List Char) : skipWs (' ' :: cs) = skipWs cs := by
  rw [Json.skipWs, if_pos (Or.inl rfl)]

theorem toList_toString_int (i : Int) : (toString i).toList =
    if i < 0 then '-' :: Nat.toDigits 10 i.natAbs else Nat.toDigits 10 i.natAbs := by
  cases i with
  | ofNat n =>
    rw [if_neg (by simp)]
    exact Nat.toList_repr
  | negSucc n =>
    rw [if_pos (Int.negSucc_lt_zero n)]
    have hrepr : toString (Int.negSucc n) = "-" ++ Nat.repr (n + 1) := rfl
    rw [hrepr, String.toList_append, Nat.toList_repr]
    rfl

theorem begins_render {ascii : Bool} {v : Value} {y : List Char} (h : v.render ascii = .ok y) :
    Begins y := by
  cases v with
  | none =>
    cases h
    exact begins_cons (by decide) _
  | bool b =>
    cases h
    cases b
    all_goals exact begins_cons (by decide) _
  | int i =>
    cases h
    rw [toList_toString_int]
    split_ifs
    · exact begins_cons (by decide) _
    · simpa using begins_of_digits (n := i.natAbs) (r := [])
  | float n =>
    cases h
    rw [toList_renderFloat]
    exact begins_of_digits
  | text t =>
    cases t with
    | str s =>
      cases h
      exact begins_cons (by decide) _
    | bytes b => cases h
  | list xs =>
    obtain ⟨ys, -, rfl⟩ := Escapes.map_eq_ok.mp h
    exact begins_cons (by decide) _
  | dict kvs =>
    obtain ⟨ys, -, rfl⟩ := Escapes.map_eq_ok.mp h
    exact begins_cons (by decide) _

/-! ## Lists and objects -/

theorem readValue_bracket {y : List Char} (hy : Begins y) (n : Nat) :
    readValue (n + 1) ('[' :: y) = mapRead .list (readElements (readValue n) y.length y) := by
  rw [readValue, hy.skipWs]
  obtain ⟨c, cs, rfl, -, hbracket, -⟩ := hy
  split
  · next heq => exact absurd (List.cons.inj heq).1 hbracket
  · rfl

theorem readValue_brace {y : List Char} (hy : Begins y) (n : Nat) :
    readValue (n + 1) ('{' :: y) =
      mapRead (fun pairs => .dict (dictOf pairs)) (readMembers (readValue n) y.length y) := by
  rw [readValue, hy.skipWs]
  obtain ⟨c, cs, rfl, -, -, hbrace⟩ := hy
  split
  · next heq => exact absurd (List.cons.inj heq).1 hbrace
  · rfl

variable {item : List Char → Option (Value × List Char)}

theorem readElements_last {n : Nat} {cs r : List Char} {x : Value} (hx : item cs = some (x, ']' :: r)) :
    readElements item (n + 1) cs = some ([x], r) := by
  rw [readElements, hx]
  simp only [skipWs_cons_of_not (c := ']') (by decide)]

theorem readElements_more {n : Nat} {cs y : List Char} {x : Value}
    (hx : item cs = some (x, ',' :: ' ' :: y)) (hy : Begins y) :
    readElements item (n + 1) cs = mapRead (x :: ·) (readElements item n y) := by
  rw [readElements, hx]
  simp only [skipWs_cons_of_not (c := ',') (by decide), skipWs_space, hy.skipWs]

/-- The key of a pair reads back. -/
theorem readStr_key (ascii : Bool) (key : String) (r : List Char) :
    readStr ((key.toList.flatMap (escape ascii) ++ '"' :: r).length + 1)
      (key.toList.flatMap (escape ascii) ++ '"' :: r) = some (key.toList, r) := by
  have hlength := length_le_flatMap_escape ascii key.toList
  refine readStr_flatMap ascii _ _ _ ?_
  rw [List.length_append]
  omega

theorem readMembers_last {ascii : Bool} {n : Nat} {key : String} {y r : List Char} {x : Value}
    (hy : Begins y) (hx : item y = some (x, '}' :: r)) :
    readMembers item (n + 1) (renderStr ascii key ++ ':' :: ' ' :: y) = some ([(key, x)], r) := by
  simp only [renderStr, List.cons_append, List.append_assoc, List.nil_append, readMembers, readStr_key,
    skipWs_cons_of_not (c := ':') (by decide), skipWs_space, hy.skipWs, hx,
    skipWs_cons_of_not (c := '}') (by decide), String.ofList_toList]

theorem readMembers_more {ascii : Bool} {n : Nat} {key : String} {y z : List Char} {x : Value}
    (hy : Begins y) (hx : item y = some (x, ',' :: ' ' :: z)) (hz : Begins z) :
    readMembers item (n + 1) (renderStr ascii key ++ ':' :: ' ' :: y) =
      mapRead ((key, x) :: ·) (readMembers item n z) := by
  simp only [renderStr, List.cons_append, List.append_assoc, List.nil_append, readMembers, readStr_key,
    skipWs_cons_of_not (c := ':') (by decide), skipWs_space, hy.skipWs, hx,
    skipWs_cons_of_not (c := ',') (by decide), hz.skipWs, String.ofList_toList]

/-! ## Dicts -/

theorem foldl_setKey_of_nodup {kvs : List (String × Value)} (seen : List (String × Value))
    (h : ((seen ++ kvs).map Prod.fst).Nodup) : kvs.foldl setKey seen = seen ++ kvs := by
  induction kvs generalizing seen with
  | nil => simp
  | cons kv kvs ih =>
    have hkv : kv.1 ∉ seen.map Prod.fst := by
      rw [List.map_append, List.map_cons] at h
      intro hmem
      exact (List.nodup_append.mp h).2.2 _ hmem _ (List.mem_cons_self ..) rfl
    have hset : setKey seen kv = seen ++ [kv] := by rw [setKey, if_neg hkv]
    rw [List.foldl_cons, hset, ih _ (by simpa using h), List.append_assoc, List.singleton_append]

/-- Pairs with distinct keys are the pairs of their dict. -/
theorem dictOf_of_nodup {kvs : List (String × Value)} (h : (kvs.map Prod.fst).Nodup) : dictOf kvs = kvs :=
  foldl_setKey_of_nodup [] (by simpa using h)

/-! ## Values -/

theorem begins_commaSep {y : List Char} (hy : Begins y) (ys : List (List Char)) : Begins (commaSep (y :: ys)) := by
  cases ys with
  | nil => exact hy
  | cons z zs =>
    rw [commaSep, List.append_assoc]
    exact hy.append _

theorem renderItems_cons {ascii : Bool} {x : Value} {xs : List Value} {ys : List (List Char)}
    (h : renderItems ascii (x :: xs) = .ok ys) :
    ∃ y ys', x.render ascii = .ok y ∧ renderItems ascii xs = .ok ys' ∧ ys = y :: ys' := by
  rw [renderItems, Escapes.bind_eq_ok] at h
  obtain ⟨y, hy, h⟩ := h
  obtain ⟨ys', hys, h⟩ := Escapes.bind_eq_ok.mp h
  cases h
  exact ⟨y, ys', hy, hys, rfl⟩

theorem renderFields_cons {ascii : Bool} {key : String} {x : Value} {kvs : List (String × Value)}
    {ys : List (List Char)} (h : renderFields ascii ((key, x) :: kvs) = .ok ys) :
    ∃ y ys', x.render ascii = .ok y ∧ renderFields ascii kvs = .ok ys' ∧
      ys = (renderStr ascii key ++ ':' :: ' ' :: y) :: ys' := by
  rw [renderFields, Escapes.bind_eq_ok] at h
  obtain ⟨y, hy, h⟩ := h
  obtain ⟨ys', hys, h⟩ := Escapes.bind_eq_ok.mp h
  cases h
  exact ⟨y, ys', hy, hys, by rw [List.append_assoc]; rfl⟩

mutual

/-- The text of a value reads back. -/
theorem readValue_render (ascii : Bool) : ∀ (v : Value) (y : List Char), v.render ascii = .ok y →
    v.DistinctKeys → ∀ (n : Nat) (r : List Char), y.length < n → Stops r → readValue n (y ++ r) = some (v, r)
  | v, y, h, hkeys, n + 1, r, hn, hr => by
    cases v with
    | none =>
      cases h
      rfl
    | bool b =>
      cases h
      cases b
      all_goals rfl
    | int i =>
      cases h
      rw [toList_toString_int]
      split_ifs with hneg
      · rw [List.cons_append, readValue, readNegative_toDigits _ hr]
        congr 3
        omega
      · obtain ⟨c, cs, hdigits⟩ := List.exists_cons_of_ne_nil (Nat.toDigits_ne_nil (n := i.natAbs) (b := 10))
        have hc : c.isDigit = true :=
          Nat.isDigit_of_mem_toDigits (b := 10) (n := i.natAbs) (by decide) (by decide) (by simp [hdigits])
        have hread := readUnsigned_toDigits i.natAbs hr
        rw [hdigits, List.cons_append] at hread ⊢
        rw [readValue_digit hc, hread]
        congr 3
        omega
    | float m =>
      cases h
      have hread := readUnsigned_renderFloat m hr
      obtain ⟨c, cs, hdigits⟩ := List.exists_cons_of_ne_nil (Nat.toDigits_ne_nil (n := m / 1000) (b := 10))
      have hc : c.isDigit = true :=
        Nat.isDigit_of_mem_toDigits (b := 10) (n := m / 1000) (by decide) (by decide) (by simp [hdigits])
      rw [toList_renderFloat, hdigits, List.cons_append, List.cons_append] at hread ⊢
      rw [readValue_digit hc, hread]
    | text t =>
      cases t with
      | bytes b => cases h
      | str s =>
        cases h
        have hread := readStr_key ascii s r
        simp only [renderStr, List.cons_append, List.append_assoc, List.nil_append, readValue]
        rw [hread, mapRead, String.ofList_toList]
    | list xs =>
      obtain ⟨ys, hys, rfl⟩ := Escapes.map_eq_ok.mp h
      have ih := readElements_render ascii xs ys
      have hlength : (commaSep ys).length < n := by
        simp only [List.length_append, List.length_cons, List.length_nil] at hn
        omega
      cases xs with
      | nil =>
        cases hys
        rfl
      | cons x xs =>
        obtain ⟨y, ys', hy, -, rfl⟩ := renderItems_cons hys
        rw [List.cons_append, List.cons_append, List.append_assoc, List.cons_append, List.nil_append,
          readValue_bracket ((begins_commaSep (begins_render hy) ys').append _),
          ih (List.cons_ne_nil x xs) hys hkeys n _ r hlength (by simp)]
        rfl
    | dict kvs =>
      obtain ⟨ys, hys, rfl⟩ := Escapes.map_eq_ok.mp h
      have ih := readMembers_render ascii kvs ys
      have hlength : (commaSep ys).length < n := by
        simp only [List.length_append, List.length_cons, List.length_nil] at hn
        omega
      cases kvs with
      | nil =>
        cases hys
        rfl
      | cons kv kvs =>
        obtain ⟨key, x⟩ := kv
        obtain ⟨y, ys', -, -, rfl⟩ := renderFields_cons hys
        have hbegins : Begins (commaSep ((renderStr ascii key ++ ':' :: ' ' :: y) :: ys') ++ '}' :: r) :=
          (begins_commaSep (begins_cons (by decide) _) ys').append _
        rw [List.cons_append, List.cons_append, List.append_assoc, List.cons_append, List.nil_append,
          readValue_brace hbegins, ih (List.cons_ne_nil _ kvs) hys hkeys.2 n _ r hlength (by simp),
          mapRead, dictOf_of_nodup hkeys.1]

theorem readElements_render (ascii : Bool) : ∀ (xs : List Value) (ys : List (List Char)), xs ≠ [] →
    renderItems ascii xs = .ok ys → DistinctItems xs → ∀ (n k : Nat) (r : List Char),
      (commaSep ys).length < n → (commaSep ys).length < k →
        readElements (readValue n) k (commaSep ys ++ ']' :: r) = some (xs, r)
  | [], _, hne, _, _, _, _, _, _, _ => absurd rfl hne
  | x :: xs, ys, _, h, hkeys, n, k + 1, r, hn, hk => by
    obtain ⟨y, ys', hy, hys, rfl⟩ := renderItems_cons h
    have hx := readValue_render ascii x y hy hkeys.1 n
    have ih := readElements_render ascii xs ys'
    cases xs with
    | nil =>
      cases hys
      refine readElements_last (hx _ ?_ (stops_cons (by decide) (by decide) _))
      simp only [commaSep] at hn
      omega
    | cons x' xs =>
      obtain ⟨y', ys, hy', -, rfl⟩ := renderItems_cons hys
      simp only [commaSep, List.length_append, List.length_cons, List.length_nil] at hn hk
      have hrest := ih (List.cons_ne_nil x' xs) hys hkeys.2 n k r (by omega) (by omega)
      rw [commaSep, List.append_assoc, List.append_assoc, List.cons_append, List.cons_append, List.nil_append,
        readElements_more (hx _ (by omega) (stops_cons (by decide) (by decide) _))
          ((begins_commaSep (begins_render hy') ys).append _), hrest]
      rfl

theorem readMembers_render (ascii : Bool) : ∀ (kvs : List (String × Value)) (ys : List (List Char)), kvs ≠ [] →
    renderFields ascii kvs = .ok ys → DistinctFields kvs → ∀ (n k : Nat) (r : List Char),
      (commaSep ys).length < n → (commaSep ys).length < k →
        readMembers (readValue n) k (commaSep ys ++ '}' :: r) = some (kvs, r)
  | [], _, hne, _, _, _, _, _, _, _ => absurd rfl hne
  | (key, x) :: kvs, ys, _, h, hkeys, n, k + 1, r, hn, hk => by
    obtain ⟨y, ys', hy, hys, rfl⟩ := renderFields_cons h
    have hx := readValue_render ascii x y hy hkeys.1 n
    have ih := readMembers_render ascii kvs ys'
    cases kvs with
    | nil =>
      cases hys
      simp only [commaSep, List.length_append, List.length_cons] at hn
      rw [commaSep, List.append_assoc, List.cons_append, List.cons_append]
      exact readMembers_last ((begins_render hy).append _)
        (hx _ (by omega) (stops_cons (by decide) (by decide) _))
    | cons kv kvs =>
      obtain ⟨key', x'⟩ := kv
      obtain ⟨y', ys, -, -, rfl⟩ := renderFields_cons hys
      simp only [commaSep, List.length_append, List.length_cons, List.length_nil] at hn hk
      have hrest := ih (List.cons_ne_nil _ kvs) hys hkeys.2 n k r (by omega) (by omega)
      have hbegins : Begins (commaSep ((renderStr ascii key' ++ ':' :: ' ' :: y') :: ys) ++ '}' :: r) :=
        (begins_commaSep (begins_cons (by decide) _) ys).append _
      rw [commaSep, List.append_assoc, List.append_assoc, List.cons_append, List.cons_append, List.nil_append,
        List.append_assoc, List.cons_append, List.cons_append, readMembers_more ((begins_render hy).append _)
          (hx _ (by omega) (stops_cons (by decide) (by decide) _)) hbegins, hrest]
      rfl

end

/-- What was written for a value reads back as the value, also with white space behind it. -/
theorem load_render {ascii : Bool} {v : Value} {y r : List Char} (h : v.render ascii = .ok y)
    (hkeys : v.DistinctKeys) (hr : skipWs r = []) : load (y ++ r) = some v := by
  have hstops : Stops r := by
    intro c hc
    obtain ⟨cs, rfl⟩ : ∃ cs, r = c :: cs := by
      cases r with
      | nil => exact nomatch hc
      | cons d cs => exact ⟨cs, by rw [Option.some.inj hc]⟩
    by_cases hws : c = ' ' ∨ c = '\t' ∨ c = '\n' ∨ c = '\r'
    · rcases hws with rfl | rfl | rfl | rfl
      all_goals exact ⟨by decide, by decide⟩
    · rw [skipWs_cons_of_not hws] at hr
      exact nomatch hr
  have hread := readValue_render ascii v y h hkeys ((y ++ r).length + 1) r
    (by rw [List.length_append]; omega) hstops
  rw [load, ((begins_render h).append r).skipWs, hread]
  exact if_pos hr

theorem renderItems_str (xs : List String) :
    renderItems true (xs.map fun s => .text (.str s)) = .ok (xs.map (renderStr true)) := by
  induction xs with
  | nil => rfl
  | cons x xs ih =>
    rw [List.map_cons, renderItems, ih]
    rfl

theorem distinctItems_str (xs : List String) : DistinctItems (xs.map fun s => .text (.str s)) := by
  induction xs with
  | nil => trivial
  | cons x xs ih => exact ⟨trivial, ih⟩

/-- What was written for a list of strings reads back as that list. -/
theorem loads_dumps (xs : List String) : loads (dumps xs) = some xs := by
  have hrender : (Value.list (xs.map fun s => .text (.str s))).render true = .ok (dumps xs).toList := by
    rw [Value.render, renderItems_str, dumps, String.toList_ofList]
    rfl
  have hload := load_render hrender (distinctItems_str xs) (r := []) rfl
  rw [List.append_nil] at hload
  rw [loads, hload]
  dsimp only
  rw [List.mapM_map]
  have hpure := List.mapM_pure (m := Option) (l := xs) (f := id)
  rwa [List.map_id] at hpure

/-! ## What is never written -/

/-- A character that is written inside a line. -/
def Inline (y : List Char) : Prop :=
  ∀ c ∈ y, 32 ≤ c.toNat

theorem inline_of_all {y : List Char} (hy : y.all (fun c => 32 ≤ c.toNat) = true) : Inline y :=
  fun c hc => of_decide_eq_true (List.all_eq_true.mp hy c hc)

theorem Inline.append {y z : List Char} (hy : Inline y) (hz : Inline z) : Inline (y ++ z) := by
  intro c hc
  rcases List.mem_append.mp hc with hc | hc
  · exact hy c hc
  · exact hz c hc

theorem inline_digits (n : Nat) : Inline (Nat.toDigits 10 n) := by
  intro c hc
  have hdigit := Nat.isDigit_of_mem_toDigits (b := 10) (by decide) (by decide) hc
  have hrange : 48 ≤ c.toNat ∧ c.toNat ≤ 57 := by
    simpa [Char.isDigit, UInt32.le_iff_toNat_le] using hdigit
  omega

theorem toNat_hexDigit : ∀ n < 16, 32 ≤ (hexDigit n).toNat := by decide

theorem inline_hex4 (n : Nat) : Inline (hex4 n) := by
  have hdigit : ∀ m : Nat, 32 ≤ (hexDigit (m % 16)).toNat := fun m =>
    toNat_hexDigit _ (Nat.mod_lt m (by omega))
  intro c hc
  simp only [hex4, List.mem_cons, List.not_mem_nil, or_false] at hc
  rcases hc with rfl | rfl | rfl | rfl | rfl | rfl
  · decide
  · decide
  all_goals exact hdigit _

theorem inline_pair {c d : Char} (hc : 32 ≤ c.toNat) (hd : 32 ≤ d.toNat) : Inline [c, d] := by
  intro e he
  rcases List.mem_pair.mp he with rfl | rfl
  · exact hc
  · exact hd

/-- Control characters are escaped, and the escapes are written in ASCII. -/
theorem inline_escape (ascii : Bool) (c : Char) : Inline (escape ascii c) := by
  unfold escape
  split_ifs with h₁ h₂ h₃ h₄ h₅ h₆ h₇ h₈ h₉ h₁₀
  case pos => exact inline_pair (by decide) (by decide)
  case pos => exact inline_pair (by decide) (by decide)
  case pos => exact inline_pair (by decide) (by decide)
  case pos => exact inline_pair (by decide) (by decide)
  case pos => exact inline_pair (by decide) (by decide)
  case pos => exact inline_pair (by decide) (by decide)
  case pos => exact inline_pair (by decide) (by decide)
  case pos => exact inline_hex4 _
  case pos => exact inline_hex4 _
  case neg => exact (inline_hex4 _).append (inline_hex4 _)
  case neg =>
    intro d hd
    obtain rfl := List.mem_singleton.mp hd
    omega

theorem inline_renderStr (ascii : Bool) (s : String) : Inline (renderStr ascii s) := by
  have hbody : Inline (s.toList.flatMap (escape ascii)) := by
    intro c hc
    obtain ⟨d, -, hd⟩ := List.mem_flatMap.mp hc
    exact inline_escape ascii d c hd
  intro c hc
  rcases List.mem_append.mp hc with hc | hc
  · rcases List.mem_cons.mp hc with rfl | hc
    · decide
    · exact hbody c hc
  · obtain rfl := List.mem_singleton.mp hc
    decide

theorem inline_commaSep {ys : List (List Char)} (h : ∀ y ∈ ys, Inline y) : Inline (commaSep ys) := by
  induction ys with
  | nil => exact fun c hc => nomatch hc
  | cons y ys ih =>
    have hy := h y (List.mem_cons_self ..)
    cases ys with
    | nil => exact hy
    | cons z zs =>
      exact (hy.append (inline_pair (by decide) (by decide))).append
        (ih fun w hw => h w (List.mem_cons_of_mem _ hw))

/-- A text between two characters, as the brackets of a list are. -/
theorem Inline.between {y : List Char} (hy : Inline y) {c d : Char} (hc : 32 ≤ c.toNat) (hd : 32 ≤ d.toNat) :
    Inline (c :: y ++ [d]) := by
  intro e he
  rcases List.mem_append.mp he with he | he
  · rcases List.mem_cons.mp he with rfl | he
    · exact hc
    · exact hy e he
  · obtain rfl := List.mem_singleton.mp he
    exact hd

mutual

/-- The text of a value stands on one line. -/
theorem inline_render (ascii : Bool) : ∀ (v : Value) (y : List Char), v.render ascii = .ok y → Inline y
  | v, y, h => by
    cases v with
    | none =>
      cases h
      exact inline_of_all (by decide)
    | bool b =>
      cases h
      cases b
      · exact inline_of_all (by decide)
      · exact inline_of_all (by decide)
    | int i =>
      cases h
      rw [toList_toString_int]
      split_ifs
      · exact fun c hc => (List.mem_cons.mp hc).elim (fun hc => hc ▸ by decide) (inline_digits _ c)
      · exact inline_digits _
    | float n =>
      cases h
      rw [toList_renderFloat]
      refine (inline_digits _).append fun c hc => ?_
      rcases List.mem_cons.mp hc with rfl | hc
      · decide
      · obtain ⟨d, hd, rfl⟩ := List.mem_map.mp hc
        have hdigit := (decimals_spec (n % 1000) (Nat.mod_lt n (by decide))).1 d hd
        exact (by decide : ∀ d < 10, 32 ≤ (Nat.digitChar d).toNat) d hdigit
    | text t =>
      cases t with
      | bytes b => cases h
      | str s =>
        cases h
        exact inline_renderStr ascii s
    | list xs =>
      obtain ⟨ys, hys, rfl⟩ := Escapes.map_eq_ok.mp h
      exact (inline_commaSep (inline_renderItems ascii xs ys hys)).between (by decide) (by decide)
    | dict kvs =>
      obtain ⟨ys, hys, rfl⟩ := Escapes.map_eq_ok.mp h
      exact (inline_commaSep (inline_renderFields ascii kvs ys hys)).between (by decide) (by decide)

theorem inline_renderItems (ascii : Bool) : ∀ (xs : List Value) (ys : List (List Char)),
    renderItems ascii xs = .ok ys → ∀ y ∈ ys, Inline y
  | [], ys, h => by
    cases h
    exact fun y hy => nomatch hy
  | x :: xs, ys, h => by
    obtain ⟨y, ys', hy, hys, rfl⟩ := renderItems_cons h
    intro z hz
    rcases List.mem_cons.mp hz with rfl | hz
    · exact inline_render ascii x z hy
    · exact inline_renderItems ascii xs ys' hys z hz

theorem inline_renderFields (ascii : Bool) : ∀ (kvs : List (String × Value)) (ys : List (List Char)),
    renderFields ascii kvs = .ok ys → ∀ y ∈ ys, Inline y
  | [], ys, h => by
    cases h
    exact fun y hy => nomatch hy
  | (key, x) :: kvs, ys, h => by
    obtain ⟨y, ys', hy, hys, rfl⟩ := renderFields_cons h
    intro z hz
    rcases List.mem_cons.mp hz with rfl | hz
    · have hcolon : Inline [':', ' '] := inline_pair (by decide) (by decide)
      exact (inline_renderStr ascii key).append (hcolon.append (inline_render ascii x y hy))
    · exact inline_renderFields ascii kvs ys' hys z hz

end

/-! ## Values without a JSON form -/

mutual

/-- Byte strings are all that `json.dumps` refuses. -/
theorem render_ok_iff (ascii : Bool) : ∀ v : Value, (∃ y, v.render ascii = .ok y) ↔ v.NoBytes
  | .none => iff_of_true ⟨_, rfl⟩ trivial
  | .bool b => iff_of_true ⟨_, rfl⟩ trivial
  | .int i => iff_of_true ⟨_, rfl⟩ trivial
  | .float n => iff_of_true ⟨_, rfl⟩ trivial
  | .text (.str s) => iff_of_true ⟨_, rfl⟩ trivial
  | .text (.bytes b) => iff_of_false (fun ⟨_, h⟩ => nomatch h) id
  | .list xs => by
    have hitems := renderItems_ok_iff ascii xs
    rw [Value.NoBytes, ← hitems]
    constructor
    · rintro ⟨y, hy⟩
      obtain ⟨ys, hys, -⟩ := Escapes.map_eq_ok.mp hy
      exact ⟨ys, hys⟩
    · rintro ⟨ys, hys⟩
      exact ⟨_, Escapes.map_eq_ok.mpr ⟨ys, hys, rfl⟩⟩
  | .dict kvs => by
    have hfields := renderFields_ok_iff ascii kvs
    rw [Value.NoBytes, ← hfields]
    constructor
    · rintro ⟨y, hy⟩
      obtain ⟨ys, hys, -⟩ := Escapes.map_eq_ok.mp hy
      exact ⟨ys, hys⟩
    · rintro ⟨ys, hys⟩
      exact ⟨_, Escapes.map_eq_ok.mpr ⟨ys, hys, rfl⟩⟩

theorem renderItems_ok_iff (ascii : Bool) : ∀ xs : List Value,
    (∃ ys, renderItems ascii xs = .ok ys) ↔ NoBytesItems xs
  | [] => iff_of_true ⟨_, rfl⟩ trivial
  | x :: xs => by
    rw [NoBytesItems, ← render_ok_iff ascii x, ← renderItems_ok_iff ascii xs]
    constructor
    · rintro ⟨ys, hys⟩
      obtain ⟨y, zs, hy, hzs, -⟩ := renderItems_cons hys
      exact ⟨⟨y, hy⟩, zs, hzs⟩
    · rintro ⟨⟨y, hy⟩, zs, hzs⟩
      exact ⟨y :: zs, by rw [renderItems, hy, hzs]; rfl⟩

theorem renderFields_ok_iff (ascii : Bool) : ∀ kvs : List (String × Value),
    (∃ ys, renderFields ascii kvs = .ok ys) ↔ NoBytesFields kvs
  | [] => iff_of_true ⟨_, rfl⟩ trivial
  | (key, x) :: kvs => by
    rw [NoBytesFields, ← render_ok_iff ascii x, ← renderFields_ok_iff ascii kvs]
    constructor
    · rintro ⟨ys, hys⟩
      obtain ⟨y, zs, hy, hzs, -⟩ := renderFields_cons hys
      exact ⟨⟨y, hy⟩, zs, hzs⟩
    · rintro ⟨⟨y, hy⟩, zs, hzs⟩
      exact ⟨_, by rw [renderFields, hy, hzs]; rfl⟩

end

end Json
