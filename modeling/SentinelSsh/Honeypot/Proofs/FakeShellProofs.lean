import Mathlib.Tactic.Ring
import SentinelSsh.Honeypot.FakeShell

/-!
# What the cut of the input does to the commands of a shell

Two things in `_fake_shell` happen once a chunk: the bytes are decoded, and the limit is looked at.
Where no byte is continued by the next one in the lines that are entered while the shell reads, what
these lines say does not depend on the cut, and the record is the same for all cuts exactly when no
chunk can step over the limit.
-/

namespace SentinelSsh.Honeypot

open Python

variable {prompt : String} {maxCommands : Int}

/-! ## The line discipline on two pieces of text -/

/-- The commands of two pieces of text: the second goes on where the first stops. -/
theorem lineCommands_append (buffer xs ys : List Char) :
    lineCommands prompt buffer (xs ++ ys) = lineCommands prompt buffer xs ++
      (bufferAfter prompt buffer xs).elim [] fun buffer' => lineCommands prompt buffer' ys := by
  induction xs generalizing buffer with
  | nil => rfl
  | cons ch xs ih =>
    rw [List.cons_append, lineCommands, lineCommands, bufferAfter]
    cases (shellChar prompt buffer ch).stop with
    | true => simp
    | false => simp [ih]

theorem bufferAfter_append (buffer xs ys : List Char) :
    bufferAfter prompt buffer (xs ++ ys) =
      (bufferAfter prompt buffer xs).bind fun buffer' => bufferAfter prompt buffer' ys := by
  induction xs generalizing buffer with
  | nil => rfl
  | cons ch xs ih =>
    rw [List.cons_append, bufferAfter, bufferAfter]
    cases (shellChar prompt buffer ch).stop with
    | true => rfl
    | false => exact ih _

theorem length_lineCommands_singleton (buffer : List Char) (ch : Char) :
    (lineCommands prompt buffer [ch]).length ≤ 1 := by
  rw [lineCommands]
  cases (shellChar prompt buffer ch).command <;>
    cases (shellChar prompt buffer ch).stop <;> simp [lineCommands]

/-! ## The loop on its chunks -/

theorem textOf_cons (d : List UInt8) (ds : List (List UInt8)) :
    textOf (d :: ds) = Utf8.decode d ++ textOf ds :=
  rfl

theorem textOf_append (ds es : List (List UInt8)) : textOf (ds ++ es) = textOf ds ++ textOf es :=
  List.flatMap_append

/-- When no chunk steps over the limit, the record is the commands of the text up to the limit. -/
theorem fakeShellLoop_eq_take {n : Nat} {buffer : List Char} {chunks : List (List UInt8)}
    (hdata : ∀ d ∈ chunks, d ≠ [])
    (h : ∀ xs d ys, chunks = xs ++ d :: ys →
      n + (lineCommands prompt buffer (textOf xs)).length < maxCommands →
        n + (lineCommands prompt buffer (textOf (xs ++ [d]))).length ≤ maxCommands) :
    fakeShellLoop prompt maxCommands n buffer chunks =
      (lineCommands prompt buffer (textOf chunks)).take (maxCommands - n).toNat := by
  induction chunks generalizing n buffer with
  | nil => simp [fakeShellLoop, textOf, lineCommands]
  | cons d ds ih =>
    rw [fakeShellLoop]
    split_ifs with hmax hend
    · rw [Int.toNat_of_nonpos (by omega), List.take_zero]
    · exact absurd hend (hdata d List.mem_cons_self)
    have hd := h [] d ds rfl (by simpa [textOf, lineCommands] using hmax)
    rw [List.nil_append, show textOf [d] = Utf8.decode d from List.append_nil _] at hd
    rw [textOf_cons, lineCommands_append]
    dsimp only
    cases hb : bufferAfter prompt buffer (Utf8.decode d) with
    | none =>
      dsimp only [Option.elim]
      rw [List.append_nil, List.take_of_length_le (by omega)]
    | some buffer' =>
      dsimp only [Option.elim]
      have hrest : ∀ xs e ys, ds = xs ++ e :: ys →
          (n + (lineCommands prompt buffer (Utf8.decode d)).length : Nat) +
              (lineCommands prompt buffer' (textOf xs)).length < maxCommands →
            (n + (lineCommands prompt buffer (Utf8.decode d)).length : Nat) +
              (lineCommands prompt buffer' (textOf (xs ++ [e]))).length ≤ maxCommands := by
        intro xs e ys hds hlt
        have hstep := h (d :: xs) e ys (by rw [hds]; rfl)
        simp only [List.cons_append, textOf_cons, lineCommands_append, hb, Option.elim,
          List.length_append] at hstep
        push_cast at hstep hlt ⊢
        have := hstep (by omega)
        omega
      have hle : (lineCommands prompt buffer (Utf8.decode d)).length ≤ (maxCommands - n).toNat := by
        omega
      rw [ih (fun d hd => hdata d (List.mem_cons_of_mem _ hd)) hrest, List.take_append,
        List.take_of_length_le hle]
      congr 2
      omega

/-- While the limit is not reached and the shell has not returned, the loop goes on after the first
chunks as it would from the buffer they leave. -/
theorem fakeShellLoop_append {n : Nat} {buffer buffer' : List Char} {xs : List (List UInt8)}
    (hdata : ∀ d ∈ xs, d ≠ []) (hb : bufferAfter prompt buffer (textOf xs) = some buffer')
    (hmax : n + (lineCommands prompt buffer (textOf xs)).length < maxCommands)
    (ys : List (List UInt8)) :
    fakeShellLoop prompt maxCommands n buffer (xs ++ ys) =
      lineCommands prompt buffer (textOf xs) ++ fakeShellLoop prompt maxCommands
        (n + (lineCommands prompt buffer (textOf xs)).length) buffer' ys := by
  induction xs generalizing n buffer with
  | nil =>
    obtain rfl : buffer = buffer' := Option.some.inj hb
    rfl
  | cons d ds ih =>
    rw [textOf_cons, bufferAfter_append] at hb
    obtain ⟨buffer₁, hd, hds⟩ := Option.bind_eq_some_iff.mp hb
    rw [textOf_cons, lineCommands_append, hd] at hmax ⊢
    dsimp only [Option.elim] at hmax ⊢
    rw [List.length_append] at hmax ⊢
    push_cast at hmax
    rw [List.cons_append, fakeShellLoop, if_neg (by omega), if_neg (hdata d List.mem_cons_self)]
    dsimp only
    rw [hd]
    dsimp only
    rw [ih (fun d hd => hdata d (List.mem_cons_of_mem _ hd)) hds (by push_cast; omega),
      List.append_assoc, Nat.add_assoc]

theorem length_le_fakeShellLoop (prompt : String) {n : Nat} (hmax : n < maxCommands)
    (buffer : List Char) {d : List UInt8} (hdata : d ≠ []) (ds : List (List UInt8)) :
    (lineCommands prompt buffer (Utf8.decode d)).length ≤
      (fakeShellLoop prompt maxCommands n buffer (d :: ds)).length := by
  rw [fakeShellLoop, if_neg (not_le.mpr hmax), if_neg hdata]
  dsimp only
  cases bufferAfter prompt buffer (Utf8.decode d) with
  | none => exact le_rfl
  | some buffer' =>
    dsimp only
    rw [List.length_append]
    exact Nat.le_add_right _ _

/-! ## Cuts -/

/-- The bytes one by one. -/
def singles (b : List UInt8) : List (List UInt8) :=
  b.map fun x => [x]

theorem flatten_singles (b : List UInt8) : (singles b).flatten = b := by
  induction b with
  | nil => rfl
  | cons x b ih => exact congrArg (x :: ·) ih

theorem isCut_append {b b' : List UInt8} {c c' : List (List UInt8)} (h : IsCut b c)
    (h' : IsCut b' c') : IsCut (b ++ b') (c ++ c') := by
  refine ⟨by rw [List.flatten_append, h.1, h'.1], fun d hd => ?_⟩
  rcases List.mem_append.mp hd with hd | hd
  · exact h.2 d hd
  · exact h'.2 d hd

theorem singles_ne_nil {b d : List UInt8} (hd : d ∈ singles b) : d ≠ [] := by
  obtain ⟨x, -, rfl⟩ := List.mem_map.mp hd
  exact List.cons_ne_nil _ _

theorem isCut_singles (b : List UInt8) : IsCut b (singles b) := by
  refine ⟨flatten_singles b, fun d hd => ⟨singles_ne_nil hd, ?_⟩⟩
  obtain ⟨x, -, rfl⟩ := List.mem_map.mp hd
  simp

theorem isCut_chunk {d : List UInt8} (hne : d ≠ []) (hlen : d.length ≤ 1024) : IsCut d [d] :=
  ⟨by simp, fun c hc => by rw [List.mem_singleton.mp hc]; exact ⟨hne, hlen⟩⟩

theorem textOf_singles (b : List UInt8) : textOf (singles b) = b.map Utf8.byteChar := by
  induction b with
  | nil => rfl
  | cons x b ih =>
    show Utf8.decode [x] ++ textOf (singles b) = _
    rw [ih, Utf8.decode_of_isolated (List.isChain_singleton x)]
    rfl

/-- The text of chunks of isolated bytes is that of the bytes one by one. -/
theorem textOf_of_isolated {c : List (List UInt8)} (h : Utf8.Isolated c.flatten) :
    textOf c = c.flatten.map Utf8.byteChar := by
  induction c with
  | nil => rfl
  | cons d c ih =>
    rw [List.flatten_cons] at h ⊢
    rw [textOf_cons, ih (h.part (List.suffix_append d _).isInfix),
      Utf8.decode_of_isolated (h.part (List.prefix_append d _).isInfix), List.map_append]

theorem exists_continues {b : List UInt8} (h : ¬ Utf8.Isolated b) :
    ∃ u x y v, b = u ++ [x, y] ++ v ∧ Utf8.Continues x y := by
  induction b with
  | nil => exact absurd List.isChain_nil h
  | cons x b ih =>
    by_cases hb : Utf8.Isolated b
    · cases b with
      | nil => exact absurd (List.isChain_singleton x) h
      | cons y b =>
        refine ⟨[], x, y, b, rfl, ?_⟩
        by_contra hxy
        exact h (List.isChain_cons_cons.mpr ⟨hxy, hb⟩)
    · obtain ⟨u, z, y, v, rfl, hzy⟩ := ih hb
      exact ⟨x :: u, z, y, v, rfl, hzy⟩

/-- The text read is the same for all cuts exactly when the bytes are isolated. -/
theorem isolated_iff_sameText (b : List UInt8) : Utf8.Isolated b ↔ SameText b := by
  constructor
  · intro h c₁ c₂ h₁ h₂
    rw [textOf_of_isolated (by rwa [h₁.1]), textOf_of_isolated (by rwa [h₂.1]), h₁.1, h₂.1]
  · intro h
    by_contra hiso
    obtain ⟨u, x, y, v, rfl, hxy⟩ := exists_continues hiso
    have hpair : IsCut (u ++ [x, y] ++ v) (singles u ++ [[x, y]] ++ singles v) :=
      isCut_append (isCut_append (isCut_singles u) (isCut_chunk (by simp) (by simp)))
        (isCut_singles v)
    have hlen := congrArg List.length (h _ _ hpair (isCut_singles _))
    rw [textOf_append, textOf_append, textOf_singles, textOf_singles, textOf_singles,
      show textOf [[x, y]] = Utf8.decode [x, y] from List.append_nil _] at hlen
    obtain ⟨c, hc, -⟩ := Utf8.decode_of_continues hxy
    simp [hc] at hlen

/-! ## Lines that are ended -/

/-- Text that ends no line completes no command. -/
theorem line_of_inLine (prompt : String) {text : List Char} (h : ∀ ch ∈ text, endsLine ch = false)
    (buffer : List Char) :
    lineCommands prompt buffer text = [] ∧ (bufferAfter prompt buffer text).isSome = true := by
  induction text generalizing buffer with
  | nil => exact ⟨rfl, rfl⟩
  | cons ch text ih =>
    have hch := h ch List.mem_cons_self
    simp only [endsLine, Bool.or_eq_false_iff, decide_eq_false_iff_not] at hch
    obtain ⟨⟨hcr, hlf⟩, hctrl⟩ := hch
    have hturn : (shellChar prompt buffer ch).command = none ∧
        (shellChar prompt buffer ch).stop = false := by
      rw [shellChar, if_neg (not_or.mpr ⟨hcr, hlf⟩)]
      split_ifs
      · exact ⟨rfl, rfl⟩
      · exact ⟨rfl, rfl⟩
      · exact ⟨rfl, rfl⟩
    obtain ⟨hcmds, hbuf⟩ := ih (fun c hc => h c (List.mem_cons_of_mem _ hc))
      (shellChar prompt buffer ch).buffer
    rw [lineCommands, bufferAfter, hturn.1, hturn.2]
    exact ⟨hcmds, hbuf⟩

/-- What ends a line records at most one command, and the next line starts with an empty buffer. -/
theorem line_of_end (prompt : String) {text : List Char} (h : ∀ ch ∈ text, endsLine ch = false)
    {ch : Char} (hch : endsLine ch = true) : ∃ (cmd : Option String) (stop : Bool), ∀ rest,
      lineCommands prompt [] (text ++ ch :: rest) =
          cmd.toList ++ (if stop then [] else lineCommands prompt [] rest) ∧
        bufferAfter prompt [] (text ++ ch :: rest) =
          if stop then none else bufferAfter prompt [] rest := by
  obtain ⟨hcmds, hsome⟩ := line_of_inLine prompt h []
  obtain ⟨buffer, hbuf⟩ := Option.isSome_iff_exists.mp hsome
  have hempty : (shellChar prompt buffer ch).buffer = [] := by
    rw [endsLine, Bool.or_eq_true, Bool.or_eq_true, decide_eq_true_iff, decide_eq_true_iff,
      decide_eq_true_iff] at hch
    rw [shellChar]
    rcases hch with hch | rfl
    · rw [if_pos hch]
      dsimp only
      split_ifs
      · rfl
      · rfl
      · rfl
    · rfl
  refine ⟨(shellChar prompt buffer ch).command, (shellChar prompt buffer ch).stop, fun rest => ?_⟩
  rw [lineCommands_append, bufferAfter_append, hcmds, hbuf, List.nil_append]
  dsimp only [Option.elim, Option.bind]
  rw [lineCommands, bufferAfter, hempty]
  exact ⟨rfl, rfl⟩

/-- Ctrl-C forgets what was typed. -/
theorem line_of_ctrlC (prompt : String) {text : List Char} (h : ∀ ch ∈ text, endsLine ch = false)
    (rest : List Char) :
    lineCommands prompt [] (text ++ Char.ofNat 3 :: rest) = lineCommands prompt [] rest ∧
      bufferAfter prompt [] (text ++ Char.ofNat 3 :: rest) = bufferAfter prompt [] rest := by
  obtain ⟨hcmds, hsome⟩ := line_of_inLine prompt h []
  obtain ⟨buffer, hbuf⟩ := Option.isSome_iff_exists.mp hsome
  rw [lineCommands_append, bufferAfter_append, hcmds, hbuf]
  exact ⟨rfl, rfl⟩

/-! ## The lines of a byte string -/

/-- What ends a line is an ASCII character. -/
theorem ascii_of_endsLine {ch : Char} (h : endsLine ch = true) :
    ch.toNat < 0x80 ∧ ch ≠ Char.ofNat 0 := by
  rw [endsLine, Bool.or_eq_true, Bool.or_eq_true, decide_eq_true_iff, decide_eq_true_iff,
    decide_eq_true_iff] at h
  rcases h with (rfl | rfl) | rfl
  · decide
  · decide
  · decide

theorem ascii_of_endsLine_byteChar {e : UInt8} (h : endsLine (Utf8.byteChar e) = true) :
    e.toNat < 0x80 := by
  by_contra hge
  rw [Utf8.byteChar, if_neg hge] at h
  exact absurd h (by decide)

/-- A byte string is one line that is not ended, or a line, what ends it and the other lines. -/
theorem lines_induction {motive : List UInt8 → Prop}
    (last : ∀ b, (∀ z ∈ b, endsLine (Utf8.byteChar z) = false) → motive b)
    (line : ∀ s e t, (∀ z ∈ s, endsLine (Utf8.byteChar z) = false) →
      endsLine (Utf8.byteChar e) = true → motive t → motive (s ++ e :: t))
    (b : List UInt8) : motive b := by
  induction hn : b.length using Nat.strong_induction_on generalizing b with
  | _ n ih =>
    subst hn
    cases hfind : b.find? (fun z => endsLine (Utf8.byteChar z)) with
    | none => exact last b fun z hz => by simpa using List.find?_eq_none.mp hfind z hz
    | some e =>
      obtain ⟨he, s, t, rfl, hs⟩ := List.find?_eq_some_iff_append.mp hfind
      refine line s e t (fun z hz => by simpa using hs z hz) he (ih t.length ?_ t rfl)
      rw [List.length_append, List.length_cons]
      omega

theorem inLine_decode {d : List UInt8} (h : ∀ z ∈ d, endsLine (Utf8.byteChar z) = false) :
    ∀ ch ∈ Utf8.decode d, endsLine ch = false := by
  intro ch hch
  by_contra hends
  rw [Bool.not_eq_false] at hends
  obtain ⟨hascii, hnul⟩ := ascii_of_endsLine hends
  obtain ⟨z, hz, rfl⟩ := Utf8.mem_decode hch hascii hnul
  rw [h z hz] at hends
  exact Bool.false_ne_true hends

theorem inLine_textOf {c : List (List UInt8)}
    (h : ∀ z ∈ c.flatten, endsLine (Utf8.byteChar z) = false) :
    ∀ ch ∈ textOf c, endsLine ch = false := by
  intro ch hch
  obtain ⟨d, hd, hch⟩ := List.mem_flatMap.mp hch
  exact inLine_decode (fun z hz => h z (List.mem_flatten_of_mem hd hz)) ch hch

theorem inLine_map {b : List UInt8} (h : ∀ z ∈ b, endsLine (Utf8.byteChar z) = false) :
    ∀ ch ∈ b.map Utf8.byteChar, endsLine ch = false := by
  intro ch hch
  obtain ⟨z, hz, rfl⟩ := List.mem_map.mp hch
  exact h z hz

/-- The chunks of a byte string can be cut at an ASCII byte. -/
theorem textOf_split {c : List (List UInt8)} {s t : List UInt8} {e : UInt8} (he : e.toNat < 0x80)
    (h : c.flatten = s ++ e :: t) : ∃ c₁ c₂, c₁.flatten = s ∧ c₂.flatten = t ∧
      textOf c = textOf c₁ ++ Utf8.byteChar e :: textOf c₂ := by
  induction c generalizing s with
  | nil => exact absurd h (by simp)
  | cons d ds ih =>
    rw [List.flatten_cons, List.append_eq_append_iff] at h
    -- the byte comes after the first chunk, or it is in it
    rcases h with ⟨a, rfl, hds⟩ | ⟨a, rfl, ha⟩
    · obtain ⟨c₁, c₂, rfl, rfl, htext⟩ := ih hds
      exact ⟨d :: c₁, c₂, rfl, rfl, by rw [textOf_cons, textOf_cons, htext, List.append_assoc]⟩
    · cases a with
      | nil =>
        obtain ⟨c₁, c₂, hc₁, rfl, htext⟩ := ih (s := []) ha.symm
        refine ⟨s :: c₁, c₂, by simp [hc₁], rfl, ?_⟩
        rw [List.append_nil, textOf_cons, textOf_cons, htext, List.append_assoc]
      | cons x a =>
        obtain ⟨rfl, rfl⟩ := List.cons.inj ha
        refine ⟨[s], a :: ds, by simp, rfl, ?_⟩
        rw [textOf_cons, Utf8.decode_ascii he, textOf_cons, textOf_cons, List.append_assoc]
        simp [textOf]

/-! ## Lines that are entered -/

variable {recorded : Nat}

theorem completed_nil (u : List UInt8) :
    completed prompt u [] = (lineCommands prompt [] (u.map Utf8.byteChar)).length := by
  rw [completed, Utf8.decode, Utf8.decodeFrom, Utf8.finish, List.append_nil]

/-- A byte that ends a line is Enter or Ctrl-C. -/
theorem enter_of_endsLine {e : UInt8} (h : endsLine (Utf8.byteChar e) = true) :
    (e = 0x0D ∨ e = 0x0A) ∨ Utf8.byteChar e = Char.ofNat 3 := by
  have hascii := ascii_of_endsLine_byteChar h
  have hnat : (Utf8.byteChar e).toNat = e.toNat := by
    rw [Utf8.byteChar, if_pos hascii, Char.ofNat, dif_pos (Or.inl (by omega))]
    rfl
  rw [endsLine, Bool.or_eq_true, Bool.or_eq_true, decide_eq_true_iff, decide_eq_true_iff,
    decide_eq_true_iff] at h
  rcases h with (hcr | hlf) | hctrl
  · rw [hcr] at hnat
    exact Or.inl (Or.inl (UInt8.toNat_inj.mp hnat.symm))
  · rw [hlf] at hnat
    exact Or.inl (Or.inr (UInt8.toNat_inj.mp hnat.symm))
  · exact Or.inr hctrl

/-- The bytes of a line that is entered while the shell reads are isolated. -/
theorem LinesIsolated.line {s v : List UInt8} {e : UInt8}
    (h : LinesIsolated prompt maxCommands recorded (s ++ e :: v)) (hmax : recorded < maxCommands)
    (hs : ∀ z ∈ s, endsLine (Utf8.byteChar z) = false) (he : e = 0x0D ∨ e = 0x0A) :
    Utf8.Isolated s := by
  by_contra hiso
  obtain ⟨u, x, y, w, rfl, hxy⟩ := exists_continues hiso
  obtain ⟨hcmds, hsome⟩ := line_of_inLine prompt
    (inLine_map (b := u) fun z hz => hs z (by simp [hz])) []
  refine h u x y w e v (by simp) ⟨⟨hsome, ?_⟩, fun z hz => hs z (by simp [hz]), he⟩ hxy
  rw [completed_nil, hcmds]
  simpa using hmax


/-- The lines after the first one: what the first one records counts against the limit. -/
theorem LinesIsolated.rest {s t : List UInt8} {e : UInt8}
    (h : LinesIsolated prompt maxCommands recorded (s ++ e :: t)) {n : Nat}
    (hlines : ∀ rest,
      (lineCommands prompt [] (s.map Utf8.byteChar ++ Utf8.byteChar e :: rest)).length =
          n + (lineCommands prompt [] rest).length ∧
        bufferAfter prompt [] (s.map Utf8.byteChar ++ Utf8.byteChar e :: rest) =
          bufferAfter prompt [] rest) :
    LinesIsolated prompt maxCommands (recorded + n) t := by
  rintro u x y w e' v rfl ⟨⟨hsome, hmax⟩, hw, he'⟩
  obtain ⟨hlen, hbuf⟩ := hlines (u.map Utf8.byteChar)
  rw [completed_nil] at hmax
  refine h (s ++ e :: u) x y w e' v (by simp) ⟨⟨?_, ?_⟩, hw, he'⟩
  · rw [List.map_append, List.map_cons, hbuf]
    exact hsome
  · rw [completed_nil, List.map_append, List.map_cons, hlen]
    push_cast at hmax ⊢
    omega

theorem LinesIsolated.afterCtrlC {s t : List UInt8} {e : UInt8}
    (h : LinesIsolated prompt maxCommands recorded (s ++ e :: t))
    (hs : ∀ z ∈ s, endsLine (Utf8.byteChar z) = false) (he : Utf8.byteChar e = Char.ofNat 3) :
    LinesIsolated prompt maxCommands recorded t := by
  refine h.rest (n := 0) fun rest => ?_
  obtain ⟨hcmds, hbuf⟩ := line_of_ctrlC prompt (inLine_map hs) rest
  rw [he, hcmds, hbuf]
  exact ⟨(Nat.zero_add _).symm, rfl⟩

/-- Two ways to read the bytes of isolated lines give the same record, up to the limit. -/
theorem take_lineCommands {b : List UInt8} {c : List (List UInt8)} (hc : c.flatten = b)
    (h : LinesIsolated prompt maxCommands recorded b) :
    (lineCommands prompt [] (textOf c)).take (maxCommands - recorded).toNat =
      (lineCommands prompt [] (b.map Utf8.byteChar)).take (maxCommands - recorded).toNat := by
  induction b using lines_induction generalizing c recorded with
  | last b hb =>
    subst hc
    rw [(line_of_inLine prompt (inLine_textOf hb) []).1, (line_of_inLine prompt (inLine_map hb) []).1]
  | line s e t hs he ih =>
    obtain ⟨c₁, c₂, rfl, rfl, htext⟩ := textOf_split (ascii_of_endsLine_byteChar he) hc
    rw [htext, List.map_append, List.map_cons]
    rcases enter_of_endsLine he with henter | hctrl
    · by_cases hmax : recorded < maxCommands
      · -- the line is read alike, and so are those after it
        rw [textOf_of_isolated (h.line hmax hs henter)]
        obtain ⟨cmd, stop, hline⟩ := line_of_end prompt (inLine_map hs) he
        rw [(hline _).1, (hline _).1]
        cases stop with
        | true => rfl
        | false =>
          have hrest : LinesIsolated prompt maxCommands (recorded + cmd.toList.length) c₂.flatten :=
            h.rest fun rest => ⟨by rw [(hline rest).1]; exact List.length_append, (hline rest).2⟩
          have hleft : (maxCommands - recorded).toNat - cmd.toList.length =
              (maxCommands - (recorded + cmd.toList.length : Nat)).toNat := by
            omega
          rw [List.take_append, List.take_append, hleft]
          exact congrArg _ (ih rfl hrest)
      · rw [Int.toNat_of_nonpos (by omega), List.take_zero, List.take_zero]
    · rw [hctrl, (line_of_ctrlC prompt (inLine_textOf hs) _).1, (line_of_ctrlC prompt (inLine_map hs) _).1]
      exact ih rfl (h.afterCtrlC hs hctrl)

/-- What a chunk completes does not depend on how the bytes before it are read, while the shell is
below the limit. -/
theorem lineCommands_chunk {b d v : List UInt8} {c : List (List UInt8)} (hc : c.flatten = b)
    (h : LinesIsolated prompt maxCommands recorded (b ++ (d ++ v)))
    (hmax : recorded + completed prompt b [] < maxCommands) :
    lineCommands prompt [] (textOf c ++ Utf8.decode d) =
      lineCommands prompt [] (b.map Utf8.byteChar ++ Utf8.decode d) := by
  rw [completed_nil] at hmax
  induction b using lines_induction generalizing c recorded with
  | last b hb =>
    subst hc
    by_cases hiso : Utf8.Isolated c.flatten
    · rw [textOf_of_isolated hiso]
    -- the line is not entered: the chunk gives it up, or does not end it
    cases hfind : d.find? (fun z => endsLine (Utf8.byteChar z)) with
    | none =>
      have hd : ∀ z ∈ d, endsLine (Utf8.byteChar z) = false := fun z hz => by
        simpa using List.find?_eq_none.mp hfind z hz
      have hchars : ∀ text, (∀ ch ∈ text, endsLine ch = false) →
          ∀ ch ∈ text ++ Utf8.decode d, endsLine ch = false := fun text htext ch hch =>
        (List.mem_append.mp hch).elim (htext ch) (inLine_decode hd ch)
      rw [(line_of_inLine prompt (hchars _ (inLine_textOf hb)) []).1,
        (line_of_inLine prompt (hchars _ (inLine_map hb)) []).1]
    | some e =>
      obtain ⟨he, s, t, rfl, hs⟩ := List.find?_eq_some_iff_append.mp hfind
      have hs : ∀ z ∈ s, endsLine (Utf8.byteChar z) = false := fun z hz => by simpa using hs z hz
      rcases enter_of_endsLine he with henter | hctrl
      · have hline : ∀ z ∈ c.flatten ++ s, endsLine (Utf8.byteChar z) = false := fun z hz =>
          (List.mem_append.mp hz).elim (hb z) (hs z)
        have hwhole : LinesIsolated prompt maxCommands recorded ((c.flatten ++ s) ++ e :: (t ++ v)) := by
          simpa using h
        have := hwhole.line (by omega) hline henter
        exact absurd (this.part (List.prefix_append _ _).isInfix) hiso
      · have hchars : ∀ text, (∀ ch ∈ text, endsLine ch = false) →
            ∀ ch ∈ text ++ Utf8.decode s, endsLine ch = false := fun text htext ch hch =>
          (List.mem_append.mp hch).elim (htext ch) (inLine_decode hs ch)
        rw [Utf8.decode_ascii (ascii_of_endsLine_byteChar he), hctrl, ← List.append_assoc,
          ← List.append_assoc, (line_of_ctrlC prompt (hchars _ (inLine_textOf hb)) _).1,
          (line_of_ctrlC prompt (hchars _ (inLine_map hb)) _).1]
  | line s e t hs he ih =>
    obtain ⟨c₁, c₂, rfl, rfl, htext⟩ := textOf_split (ascii_of_endsLine_byteChar he) hc
    rw [List.append_assoc, List.cons_append] at h
    rw [htext, List.map_append, List.map_cons, List.append_assoc, List.append_assoc, List.cons_append,
      List.cons_append]
    rw [List.map_append, List.map_cons] at hmax
    rcases enter_of_endsLine he with henter | hctrl
    · rw [textOf_of_isolated (h.line (by omega) hs henter)]
      obtain ⟨cmd, stop, hline⟩ := line_of_end prompt (inLine_map hs) he
      rw [(hline _).1, (hline _).1]
      cases stop with
      | true => rfl
      | false =>
        rw [(hline _).1, List.length_append] at hmax
        have hrest : LinesIsolated prompt maxCommands (recorded + cmd.toList.length)
            (c₂.flatten ++ (d ++ v)) :=
          h.rest fun rest => ⟨by rw [(hline rest).1]; exact List.length_append, (hline rest).2⟩
        refine congrArg (cmd.toList ++ ·) (ih rfl hrest ?_)
        push_cast at hmax ⊢
        omega
    · rw [hctrl, (line_of_ctrlC prompt (inLine_map hs) _).1] at hmax
      rw [hctrl, (line_of_ctrlC prompt (inLine_textOf hs) _).1, (line_of_ctrlC prompt (inLine_map hs) _).1]
      exact ih rfl (h.afterCtrlC hs hctrl) hmax

/-! ## The limit -/

theorem completed_snoc_le (prompt : String) (b : List UInt8) (x : UInt8) :
    completed prompt (b ++ [x]) [] ≤ completed prompt b [] + 1 := by
  rw [completed_nil, completed_nil, List.map_append, lineCommands_append, List.length_append]
  cases bufferAfter prompt [] (b.map Utf8.byteChar) with
  | none => exact Nat.le_succ _
  | some buffer => exact Nat.add_le_add_left (length_lineCommands_singleton buffer _) _

/-- The bytes one by one: the limit cuts the record. -/
theorem fakeShell_singles (b : List UInt8) :
    fakeShell prompt maxCommands recorded (singles b) =
      (lineCommands prompt [] (b.map Utf8.byteChar)).take (maxCommands - recorded).toNat := by
  rw [← textOf_singles]
  refine fakeShellLoop_eq_take (fun d hd => singles_ne_nil hd) fun xs d ys hb hlt => ?_
  obtain ⟨u, v, rfl, rfl, hv⟩ := List.map_eq_append_iff.mp hb
  obtain ⟨x, w, rfl, rfl, -⟩ := List.map_eq_cons_iff.mp hv
  have hsnoc := completed_snoc_le prompt u x
  rw [show List.map (fun x => [x]) u ++ [[x]] = singles (u ++ [x]) by simp [singles], textOf_singles]
  rw [show List.map (fun x => [x]) u = singles u from rfl, textOf_singles] at hlt
  rw [completed_nil, completed_nil] at hsnoc
  omega

/-- A chunk that steps over the limit: with it the record is longer than with the bytes one by one. -/
theorem lt_length_fakeShell {u d v : List UInt8} (hd : d ≠ [])
    (hu : recorded + completed prompt u [] < maxCommands)
    (hud : maxCommands < recorded + completed prompt u d) :
    (maxCommands - recorded).toNat <
      (fakeShell prompt maxCommands recorded (singles u ++ d :: singles v)).length := by
  rw [completed, lineCommands_append] at hud
  rw [completed_nil] at hu
  cases hb : bufferAfter prompt [] (u.map Utf8.byteChar) with
  | none =>
    rw [hb] at hud
    dsimp only [Option.elim] at hud
    rw [List.append_nil] at hud
    omega
  | some buffer =>
    rw [hb] at hud
    dsimp only [Option.elim] at hud
    rw [List.length_append] at hud
    rw [← textOf_singles] at hb hu hud
    rw [fakeShell, fakeShellLoop_append (fun e he => singles_ne_nil he) hb hu, List.length_append]
    have hchunk := length_le_fakeShellLoop prompt
      (n := recorded + (lineCommands prompt [] (textOf (singles u))).length)
      (by push_cast; exact hu) buffer hd (singles v)
    push_cast at hud
    omega

/-- Isolated lines: the record is the same for all cuts exactly when no chunk can step over the
limit. -/
theorem cutInsensitive_iff_noStraddle {b : List UInt8}
    (h : LinesIsolated prompt maxCommands recorded b) :
    CutInsensitive prompt maxCommands recorded b ↔ NoStraddle prompt maxCommands recorded b := by
  constructor
  · rintro hcut u d v rfl hlen hu
    by_contra hud
    rw [not_le] at hud
    have hne : d ≠ [] := by
      rintro rfl
      omega
    have hone := isCut_append (isCut_singles u) (isCut_append (isCut_chunk hne hlen) (isCut_singles v))
    have hlong := lt_length_fakeShell (v := v) hne hu hud
    have hsame := hcut _ _ hone (isCut_singles _)
    rw [List.singleton_append] at hsame
    rw [hsame, fakeShell_singles] at hlong
    exact absurd (List.length_take_le _ _) (not_le.mpr hlong)
  · intro hno
    have htake : ∀ c, IsCut b c → fakeShell prompt maxCommands recorded c =
        (lineCommands prompt [] (b.map Utf8.byteChar)).take (maxCommands - recorded).toNat := by
      rintro c ⟨rfl, hc⟩
      rw [← take_lineCommands rfl h]
      refine fakeShellLoop_eq_take (fun d hd => (hc d hd).1) fun xs d ys hcs hlt => ?_
      subst hcs
      rw [List.flatten_append, List.flatten_cons] at h hno
      -- the chunks before `d` leave as many commands as their bytes one by one
      have hbefore : recorded + completed prompt xs.flatten [] < maxCommands := by
        have hxs : LinesIsolated prompt maxCommands recorded xs.flatten := fun u x y w e v hb =>
          h u x y w e (v ++ (d ++ ys.flatten)) (by rw [hb]; simp)
        have hsame := congrArg List.length (take_lineCommands rfl hxs)
        rw [List.length_take, List.length_take] at hsame
        rw [completed_nil]
        omega
      have hstep := hno xs.flatten d ys.flatten rfl (hc d (by simp)).2 hbefore
      rw [textOf_append, show textOf [d] = Utf8.decode d from List.append_nil _,
        lineCommands_chunk rfl h hbefore]
      rw [completed] at hstep
      exact hstep
    intro c₁ c₂ h₁ h₂
    rw [htake c₁ h₁, htake c₂ h₂]

/-! ## A character that is split -/

theorem endsLine_of_not_ascii {c : Char} (hc : 0x80 ≤ c.toNat) : endsLine c = false := by
  by_contra h
  exact absurd (ascii_of_endsLine (Bool.not_eq_false _ ▸ h)).1 (not_lt.mpr hc)

/-- The keys a text presses: what they add to the line when they erase nothing that stood before. -/
theorem bufferAfter_snoc {buffer kept text : List Char}
    (h : bufferAfter prompt buffer text = some (buffer ++ kept)) {ch : Char} (hch : endsLine ch = false)
    (hdel : ch = Char.ofNat 0x7F → kept ≠ []) :
    bufferAfter prompt buffer (text ++ [ch]) =
      some (buffer ++ if ch = Char.ofNat 0x7F then kept.dropLast else kept ++ [ch]) := by
  simp only [endsLine, Bool.or_eq_false_iff, decide_eq_false_iff_not] at hch
  obtain ⟨⟨hcr, hlf⟩, hctrl⟩ := hch
  rw [bufferAfter_append, h, Option.bind_some, bufferAfter]
  by_cases hd : ch = Char.ofNat 0x7F
  · have hne : buffer ++ kept ≠ [] := List.append_ne_nil_of_right_ne_nil _ (hdel hd)
    rw [shellChar, if_neg (not_or.mpr ⟨hcr, hlf⟩), if_pos hd, if_neg hne, if_pos hd,
      ← List.dropLast_append_of_ne_nil (hdel hd)]
    rfl
  · rw [shellChar, if_neg (not_or.mpr ⟨hcr, hlf⟩), if_neg hd, if_neg hctrl, if_neg hd,
      ← List.append_assoc]
    rfl

/-- Bytes that erase only bytes of their own extend the line. -/
theorem line_of_erasesOwn (prompt : String) {w : List UInt8}
    (hw : ∀ z ∈ w, endsLine (Utf8.byteChar z) = false) (herase : ErasesOwn w) :
    ∃ kept, kept.length + 2 * w.count 0x7F = w.length ∧
      ∀ buffer, bufferAfter prompt buffer (w.map Utf8.byteChar) = some (buffer ++ kept) := by
  induction w using List.reverseRecOn with
  | nil => exact ⟨[], rfl, fun buffer => congrArg some (List.append_nil buffer).symm⟩
  | append_singleton w z ih =>
    obtain ⟨kept, hlen, hbuf⟩ := ih (fun z hz => hw z (List.mem_append_left _ hz))
      fun p hp => herase p (hp.trans (List.prefix_append _ _))
    have hwhole := herase _ (List.prefix_refl _)
    rw [List.count_append, List.length_append, List.length_singleton] at hwhole
    have hdel : Utf8.byteChar z = Char.ofNat 0x7F ↔ z = 0x7F := by
      constructor
      · intro h
        by_cases hascii : z.toNat < 0x80
        · have hnat := congrArg Char.toNat h
          rw [Utf8.byteChar, if_pos hascii, Char.ofNat, dif_pos (Or.inl (by omega))] at hnat
          exact UInt8.toNat_inj.mp hnat
        · rw [Utf8.byteChar, if_neg hascii] at h
          exact absurd h (by decide)
      · rintro rfl
        rfl
    have hne : Utf8.byteChar z = Char.ofNat 0x7F → kept ≠ [] := by
      rintro hz rfl
      rw [hdel.mp hz, List.count_singleton_self] at hwhole
      rw [List.length_nil] at hlen
      omega
    refine ⟨if Utf8.byteChar z = Char.ofNat 0x7F then kept.dropLast else kept ++ [Utf8.byteChar z],
      ?_, fun buffer => ?_⟩
    · rw [List.count_append, List.length_append, List.length_singleton]
      split_ifs with hz
      · have hpos := List.length_pos_iff.mpr (hne hz)
        rw [List.length_dropLast, hdel.mp hz, List.count_singleton_self]
        omega
      · have hcount : [z].count 0x7F = 0 := by
          rw [List.count_eq_zero, List.mem_singleton]
          exact fun h => hz (hdel.mpr h.symm)
        rw [List.length_append, List.length_singleton, hcount]
        omega
    · rw [List.map_append, List.map_singleton]
      exact bufferAfter_snoc (hbuf buffer) (hw z (by simp)) hne

/-- The loop goes on after chunks that complete no command and extend the line. -/
theorem fakeShellLoop_of_text {n : Nat} (hmax : n < maxCommands) {buffer kept : List Char}
    {xs : List (List UInt8)} (hdata : ∀ d ∈ xs, d ≠ []) (hxs : ∀ ch ∈ textOf xs, endsLine ch = false)
    (hkept : bufferAfter prompt buffer (textOf xs) = some (buffer ++ kept)) (ys : List (List UInt8)) :
    fakeShellLoop prompt maxCommands n buffer (xs ++ ys) =
      fakeShellLoop prompt maxCommands n (buffer ++ kept) ys := by
  have hcmds := (line_of_inLine prompt hxs buffer).1
  rw [fakeShellLoop_append hdata hkept (by rw [hcmds]; simpa using hmax), hcmds]
  rfl

/-- A text of printable characters extends the line by itself. -/
theorem bufferAfter_of_not_ascii {text : List Char} (h : ∀ ch ∈ text, 0x80 ≤ ch.toNat)
    (buffer : List Char) : bufferAfter prompt buffer text = some (buffer ++ text) := by
  induction text using List.reverseRecOn with
  | nil => exact congrArg some (List.append_nil buffer).symm
  | append_singleton text ch ih =>
    have hne : ch ≠ Char.ofNat 0x7F := by
      rintro rfl
      exact absurd (h (Char.ofNat 0x7F) (by simp)) (by decide)
    rw [bufferAfter_snoc (ih fun c hc => h c (by simp [hc])) (endsLine_of_not_ascii (h ch (by simp)))
      (absurd · hne), if_neg hne]

/-- Enter records the line, unless it is blank. -/
theorem fakeShellLoop_enter {n : Nat} (hmax : n < maxCommands) (buffer : List Char) {e : UInt8}
    (he : e = 0x0D ∨ e = 0x0A) (ds : List (List UInt8)) :
    (strip buffer = [] → fakeShellLoop prompt maxCommands n buffer ([e] :: ds) =
        fakeShellLoop prompt maxCommands n [] ds) ∧
      (strip buffer ≠ [] → ∃ rest, fakeShellLoop prompt maxCommands n buffer ([e] :: ds) =
        String.ofList (strip buffer) :: rest) := by
  obtain ⟨ch, hch, hdecode⟩ : ∃ ch, (ch = '\r' ∨ ch = '\n') ∧ Utf8.decode [e] = [ch] := by
    rcases he with rfl | rfl
    · exact ⟨'\r', Or.inl rfl, by decide⟩
    · exact ⟨'\n', Or.inr rfl, by decide⟩
  rw [fakeShellLoop, if_neg (not_le.mpr hmax), if_neg (List.cons_ne_nil _ _)]
  dsimp only
  rw [hdecode, lineCommands]
  constructor
  · intro hnil
    have hturn : shellChar prompt buffer ch = { buffer := [], sent := ["\r\n", prompt] } := by
      rw [shellChar, if_pos hch, hnil]
      exact if_pos rfl
    rw [bufferAfter, hturn]
    rfl
  · intro hne
    have hcmd : (shellChar prompt buffer ch).command = some (String.ofList (strip buffer)) := by
      rw [shellChar, if_pos hch]
      dsimp only
      rw [if_neg (mt String.ofList_eq_empty_iff.mp hne)]
      split_ifs
      · rfl
      · rfl
    rw [hcmd]
    cases bufferAfter prompt buffer [ch] with
    | none => exact ⟨_, rfl⟩
    | some buffer' => exact ⟨_, rfl⟩

/-- Two lines that differ when they are entered leave different records. A blank line records nothing,
so then nothing may come after it. -/
theorem fakeShellLoop_enter_ne {n : Nat} (hmax : n < maxCommands) {line₁ line₂ : List Char}
    (hne : strip line₁ ≠ strip line₂) (hne₂ : strip line₂ ≠ []) {e : UInt8}
    (he : e = 0x0D ∨ e = 0x0A) {v : List UInt8} (hv : v = [] ∨ strip line₁ ≠ []) :
    fakeShellLoop prompt maxCommands n line₁ (singles (e :: v)) ≠
      fakeShellLoop prompt maxCommands n line₂ (singles (e :: v)) := by
  intro hsame
  obtain ⟨hblank, hrecord⟩ := fakeShellLoop_enter hmax line₁ he (singles v)
  obtain ⟨rest₂, hrest₂⟩ := (fakeShellLoop_enter hmax line₂ he (singles v)).2 hne₂
  by_cases hnil : strip line₁ = []
  · obtain rfl := hv.resolve_right (not_not_intro hnil)
    exact absurd (((hblank hnil).symm.trans hsame).trans hrest₂) (List.cons_ne_nil _ _).symm
  · obtain ⟨rest₁, hrest₁⟩ := hrecord hnil
    have hcons := (hrest₁.symm.trans hsame).trans hrest₂
    exact hne (String.ofList_injective (List.cons.inj hcons).1)

/-- A line with one character and the same line with two U+FFFD in its place. -/
theorem strip_split (buffer text : List Char) (c : Char) :
    strip (buffer ++ [c] ++ text) ≠ strip (buffer ++ [Utf8.replacement, Utf8.replacement] ++ text) ∧
      strip (buffer ++ [Utf8.replacement, Utf8.replacement] ++ text) ≠ [] ∧
      (isspace c = false → strip (buffer ++ [c] ++ text) ≠ []) := by
  set p : Char → Bool := fun c => !isspace c with hp
  have hcount₁ : (strip (buffer ++ [c] ++ text)).countP p =
      buffer.countP p + [c].countP p + text.countP p := by
    rw [countP_strip, List.countP_append, List.countP_append]
  have hcount₂ : (strip (buffer ++ [Utf8.replacement, Utf8.replacement] ++ text)).countP p =
      buffer.countP p + 2 + text.countP p := by
    rw [countP_strip, List.countP_append, List.countP_append]
    rfl
  refine ⟨fun heq => ?_, fun hnil => ?_, fun hc hnil => ?_⟩
  · have hle : [c].countP p ≤ 1 := List.countP_le_length
    rw [heq] at hcount₁
    omega
  · rw [hnil, List.countP_nil] at hcount₂
    omega
  · have hone : [c].countP p = 1 := by
      rw [List.countP_singleton, hp]
      simp [hc]
    rw [hnil, List.countP_nil] at hcount₁
    omega

/-- Whether a character is read in one piece shows as soon as the line is entered, if no backspace
comes back to it, whatever follows. White space can leave the line blank; then nothing may come after
it. -/
theorem not_cutInsensitive_of_continues {u w v : List UInt8} {x y e : UInt8}
    (hxy : Utf8.Continues x y) (henters : Enters prompt maxCommands recorded u x y w e)
    (herase : ErasesOwn w) (hv : v = [] ∨ ∀ c ∈ Utf8.decode [x, y], isspace c = false) :
    ¬ CutInsensitive prompt maxCommands recorded (u ++ ([x, y] ++ (w ++ e :: v))) := by
  intro hcut
  obtain ⟨⟨hsome, hmax⟩, hw, he⟩ := henters
  rw [completed_nil] at hmax
  obtain ⟨buffer, hb⟩ := Option.isSome_iff_exists.mp hsome
  obtain ⟨c, hc, hascii⟩ := Utf8.decode_of_continues hxy
  obtain ⟨hx, hy⟩ := Utf8.byteChar_of_continues hxy
  have hrest := isCut_append (isCut_singles w) (isCut_singles (e :: v))
  have hpair : ∀ d ∈ [[x, y]], d ≠ [] := fun d hd => by
    rw [List.mem_singleton.mp hd]
    exact List.cons_ne_nil _ _
  have hone := isCut_append (isCut_singles u)
    (isCut_append (isCut_chunk (d := [x, y]) (by simp) (by simp)) hrest)
  have htwo := isCut_append (isCut_singles u) (isCut_append (isCut_singles [x, y]) hrest)
  have hsame := hcut _ _ hone htwo
  rw [← textOf_singles] at hb
  have hlt : recorded + (lineCommands prompt [] (textOf (singles u))).length < maxCommands := by
    rwa [textOf_singles]
  rw [fakeShell, fakeShell, fakeShellLoop_append (fun d hd => singles_ne_nil hd) hb hlt,
    fakeShellLoop_append (fun d hd => singles_ne_nil hd) hb hlt, List.append_cancel_left_eq] at hsame
  have hlt' : ((recorded + (lineCommands prompt [] (textOf (singles u))).length : Nat) : Int) <
      maxCommands := by
    push_cast
    exact hlt
  -- the line before Enter, with the pair read in one piece and in two
  have htext₁ : textOf [[x, y]] = [c] := (List.append_nil _).trans hc
  have htext₂ : textOf (singles [x, y]) = [Utf8.replacement, Utf8.replacement] := by
    rw [textOf_singles, List.map_cons, List.map_singleton, hx, hy]
  have hchars₁ : ∀ ch ∈ textOf [[x, y]], 0x80 ≤ ch.toNat := by
    rw [htext₁]
    simpa using hascii
  have hchars₂ : ∀ ch ∈ textOf (singles [x, y]), 0x80 ≤ ch.toNat := by
    rw [htext₂]
    simp [Utf8.replacement]
  have hcharsw : ∀ ch ∈ textOf (singles w), endsLine ch = false := by
    rw [textOf_singles]
    exact inLine_map hw
  obtain ⟨kept, -, hkept⟩ := line_of_erasesOwn prompt hw herase
  rw [← textOf_singles] at hkept
  rw [fakeShellLoop_of_text hlt' hpair (fun ch hch => endsLine_of_not_ascii (hchars₁ ch hch))
      (bufferAfter_of_not_ascii hchars₁ buffer),
    fakeShellLoop_of_text hlt' (fun d hd => singles_ne_nil hd) hcharsw (hkept _),
    fakeShellLoop_of_text hlt' (fun d hd => singles_ne_nil hd)
      (fun ch hch => endsLine_of_not_ascii (hchars₂ ch hch)) (bufferAfter_of_not_ascii hchars₂ buffer),
    fakeShellLoop_of_text hlt' (fun d hd => singles_ne_nil hd) hcharsw (hkept _), htext₁, htext₂]
    at hsame
  obtain ⟨hne, hne₂, hprint⟩ := strip_split buffer kept c
  refine fakeShellLoop_enter_ne hlt' hne hne₂ he (hv.imp_right fun hv => ?_) hsame
  exact hprint (hv c (by rw [hc]; exact List.mem_singleton_self c))

/-- Without backspaces and two-byte white space the condition is exact. -/
theorem cutInsensitive_iff_of_plain {b : List UInt8} (hdel : 0x7F ∉ b)
    (hspace : ∀ x y, [x, y] <:+: b → Utf8.Continues x y → ∀ c ∈ Utf8.decode [x, y], isspace c = false) :
    CutInsensitive prompt maxCommands recorded b ↔
      LinesIsolated prompt maxCommands recorded b ∧ NoStraddle prompt maxCommands recorded b := by
  constructor
  · intro hcut
    have hlines : LinesIsolated prompt maxCommands recorded b := by
      rintro u x y w e v rfl henters hxy
      refine not_cutInsensitive_of_continues hxy henters (fun p hp => ?_)
        (Or.inr (hspace x y ⟨u, w ++ e :: v, by simp⟩ hxy)) hcut
      have hcount : p.count 0x7F = 0 :=
        List.count_eq_zero.mpr fun hmem => hdel (by simp [hp.subset hmem])
      rw [hcount]
      exact Nat.zero_le _
    exact ⟨hlines, (cutInsensitive_iff_noStraddle hlines).mp hcut⟩
  · rintro ⟨hlines, hno⟩
    exact (cutInsensitive_iff_noStraddle hlines).mpr hno

/-- The cut of the input. The text of some bytes is the same for all cuts if and only if no byte is
continued by the next one. Where this holds of the lines that are entered while the shell still reads,
the commands are the same for all cuts if and only if no chunk can step over the limit. A pair of bytes
that is read as one character in such a line gives different commands when it is cut, unless a
backspace comes back to it or it is white space; so where the bytes hold neither backspaces nor such
white space, the commands are the same for all cuts exactly under these two conditions. -/
theorem commands_of_cut (prompt : String) (maxCommands : Int) (recorded : Nat) :
    (∀ b, Utf8.Isolated b ↔ SameText b) ∧
      (∀ b, LinesIsolated prompt maxCommands recorded b →
        (CutInsensitive prompt maxCommands recorded b ↔ NoStraddle prompt maxCommands recorded b)) ∧
      (∀ u x y w e v, Utf8.Continues x y → Enters prompt maxCommands recorded u x y w e →
        ErasesOwn w → (v = [] ∨ ∀ c ∈ Utf8.decode [x, y], isspace c = false) →
        ¬ CutInsensitive prompt maxCommands recorded (u ++ ([x, y] ++ (w ++ e :: v)))) ∧
      ∀ b, 0x7F ∉ b → (∀ x y, [x, y] <:+: b → Utf8.Continues x y →
          ∀ c ∈ Utf8.decode [x, y], isspace c = false) →
        (CutInsensitive prompt maxCommands recorded b ↔
          LinesIsolated prompt maxCommands recorded b ∧ NoStraddle prompt maxCommands recorded b) :=
  ⟨isolated_iff_sameText, fun _ h => cutInsensitive_iff_noStraddle h,
    fun _ _ _ _ _ _ hxy henters herase hv => not_cutInsensitive_of_continues hxy henters herase hv,
    fun _ hdel hspace => cutInsensitive_iff_of_plain hdel hspace⟩

/-- "id" and Enter, and "é" behind it, which is never entered. -/
theorem commands_of_cut_id : CutInsensitive "root@srv01:~# " 100 0 [0x69, 0x64, 0x0D, 0xC3, 0xA9] ↔
    NoStraddle "root@srv01:~# " 100 0 [0x69, 0x64, 0x0D, 0xC3, 0xA9] := by
  refine (commands_of_cut "root@srv01:~# " 100 0).2.1 _ ?_
  rintro u x y w e v hb ⟨-, -, he⟩
  rcases u with _ | ⟨a, _ | ⟨b, _ | ⟨c, u⟩⟩⟩
  · obtain ⟨rfl, rfl, -⟩ : 0x69 = x ∧ 0x64 = y ∧ _ := by simpa using hb
    decide
  · obtain ⟨-, rfl, rfl, -⟩ : 0x69 = a ∧ 0x64 = x ∧ 0x0D = y ∧ _ := by simpa using hb
    decide
  · obtain ⟨-, -, rfl, rfl, -⟩ : 0x69 = a ∧ 0x64 = b ∧ 0x0D = x ∧ 0xC3 = y ∧ _ := by simpa using hb
    decide
  · have hlen := congrArg List.length hb
    simp at hlen
    omega

/-- "é" and Enter: the cut in the middle of the character shows in the record. -/
theorem not_cutInsensitive_accent : ¬ ∀ (prompt : String) (maxCommands : Int) (recorded : Nat)
    (b : List UInt8), CutInsensitive prompt maxCommands recorded b := by
  intro h
  have hsame := h "root@srv01:~# " 100 0 [0xC3, 0xA9, 0x0D] [[0xC3, 0xA9, 0x0D]] [[0xC3], [0xA9, 0x0D]]
    (by simp [IsCut]) (by simp [IsCut])
  exact absurd hsame (by decide)

end SentinelSsh.Honeypot
