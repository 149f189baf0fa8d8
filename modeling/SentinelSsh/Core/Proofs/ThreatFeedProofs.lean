import SentinelSsh.Core.ThreatFeed
import SentinelSsh.Lib.Proofs.Utf8Proofs

/-!
# Any feed that is text

A line that is no address is skipped, so what a feed says depends on the set of its other lines. The
bytes are decoded before there are lines: one that belongs to no character, in whatever line, and there
is no feed at all.
-/

namespace SentinelSsh.Core

open Python

section Feed

variable {lib : FeedLib} {content content' : List UInt8}

/-- The network of a line, if it names one. -/
def FeedLib.lineNetwork (lib : FeedLib) (line : List Char) : Option lib.Net :=
  if strip line = [] ∨ (strip line).head? = some '#' then none
  else lib.ipNetwork (String.ofList (strip line))

theorem loadLine_eq (networks : List lib.Net) (line : List Char) :
    loadLine lib networks line = networks ++ (lib.lineNetwork line).toList := by
  unfold loadLine FeedLib.lineNetwork
  dsimp only
  split
  · exact (List.append_nil _).symm
  · cases lib.ipNetwork (String.ofList (strip line)) with
    | none => exact (List.append_nil _).symm
    | some net => rfl

/-- The loop collects the networks of the lines. -/
theorem foldl_loadLine (networks : List lib.Net) (lines : List (List Char)) :
    lines.foldl (loadLine lib) networks = networks ++ lines.filterMap lib.lineNetwork := by
  induction lines generalizing networks with
  | nil => exact (List.append_nil _).symm
  | cons line lines ih =>
    rw [List.foldl_cons, ih, loadLine_eq, List.append_assoc, List.filterMap_cons]
    cases lib.lineNetwork line with
    | none => rfl
    | some net => rfl

theorem names_iff {line : List Char} {addr : lib.Addr} :
    lib.Names line addr ↔ ∃ net, lib.lineNetwork line = some net ∧ lib.contains net addr = true := by
  unfold FeedLib.lineNetwork
  by_cases h : strip line = [] ∨ (strip line).head? = some '#'
  · rw [if_pos h]
    refine iff_of_false ?_ (by simp)
    intro hn
    exact h.elim hn.not_blank hn.not_comment
  · rw [if_neg h]
    rw [not_or] at h
    exact ⟨fun hn => hn.network, fun hn => ⟨h.1, h.2, hn⟩⟩

/-- A line that names something is not empty. -/
theorem FeedLib.Names.ne_nil {line : List Char} {addr : lib.Addr} (h : lib.Names line addr) : line ≠ [] := by
  rintro rfl
  exact h.not_blank rfl

theorem isMalicious_iff (networks : List lib.Net) (ip : String) :
    (checkReputation lib.toIpLib networks ip).isMalicious = true ↔
      ∃ addr, lib.ipAddress ip = some addr ∧ ∃ net ∈ networks, lib.contains net addr = true := by
  unfold checkReputation
  cases lib.ipAddress ip with
  | none => simp
  | some addr =>
    dsimp only
    split
    · next hany => exact iff_of_true rfl ⟨addr, rfl, List.any_eq_true.mp hany⟩
    · next hany =>
      refine iff_of_false (by decide) ?_
      rintro ⟨addr', haddr, hnet⟩
      obtain rfl := Option.some.inj haddr
      exact hany (List.any_eq_true.mpr hnet)

/-- The lines of a text that was read are those of its bytes. -/
theorem mem_feedLines {text : String} (h : Utf8.decodeStrict content = some text) {line : List Char}
    (hline : line ≠ []) :
    line ∈ splitlines (universalNewlines text.toList) ↔ line ∈ feedLines content := by
  rw [mem_lines_iff hline, feedLines, Utf8.decode_of_decodeStrict h]

/-- A feed that is text is read, and its lines decide every verdict. -/
theorem vetted_of_decodeStrict {text : String} (h : Utf8.decodeStrict content = some text) :
    Vetted lib content := by
  have hload : loadFeed lib (some content) =
      .ok ((splitlines (universalNewlines text.toList)).filterMap lib.lineNetwork) := by
    have hread : readText content = .ok (universalNewlines text.toList) := by
      rw [readText, h]
    show (readText content).map (fun text => (splitlines text).foldl (loadLine lib) []) = _
    rw [hread]
    exact congrArg Except.ok (foldl_loadLine [] _)
  refine ⟨_, hload, fun ip => ?_⟩
  rw [isMalicious_iff]
  refine exists_congr fun addr => and_congr_right fun _ => ?_
  constructor
  · rintro ⟨net, hnet, hcontains⟩
    obtain ⟨line, hline, hnetwork⟩ := List.mem_filterMap.mp hnet
    have hnames : lib.Names line addr := names_iff.mpr ⟨net, hnetwork, hcontains⟩
    exact ⟨line, (mem_feedLines h hnames.ne_nil).mp hline, hnames⟩
  · rintro ⟨line, hline, hnames⟩
    obtain ⟨net, hnetwork, hcontains⟩ := names_iff.mp hnames
    exact ⟨net, List.mem_filterMap.mpr ⟨line, (mem_feedLines h hnames.ne_nil).mpr hline, hnetwork⟩, hcontains⟩

/-- Bytes that are no text are not read. -/
theorem loadFeed_of_none (h : Utf8.decodeStrict content = none) :
    loadFeed lib (some content) = .error .unicodeDecodeError := by
  have hread : readText content = .error .unicodeDecodeError := by
    rw [readText, h]
  show (readText content).map (fun text => (splitlines text).foldl (loadLine lib) []) = _
  rw [hread]
  rfl

/-- A feed that was read is text. -/
theorem encode_of_loadFeed {networks : List lib.Net} (h : loadFeed lib (some content) = .ok networks) :
    ∃ text, content = Utf8.encode text := by
  cases hdecode : Utf8.decodeStrict content with
  | none =>
    rw [loadFeed_of_none hdecode] at h
    cases h
  | some text => exact ⟨text, Utf8.decodeStrict_eq_some.mp hdecode⟩

theorem vetted_encode (text : String) : Vetted lib (Utf8.encode text) :=
  vetted_of_decodeStrict (Utf8.decodeStrict_eq_some.mpr rfl)

/-- The lines that name an address decide, in whatever order they come and however often. -/
theorem isMalicious_congr {networks networks' : List lib.Net}
    (hload : loadFeed lib (some content) = .ok networks)
    (hload' : loadFeed lib (some content') = .ok networks')
    (hlines : ∀ line, (∃ addr, lib.Names line addr) → (line ∈ feedLines content ↔ line ∈ feedLines content'))
    (ip : String) :
    (checkReputation lib.toIpLib networks ip).isMalicious =
      (checkReputation lib.toIpLib networks' ip).isMalicious := by
  obtain ⟨text, rfl⟩ := encode_of_loadFeed hload
  obtain ⟨text', rfl⟩ := encode_of_loadFeed hload'
  have hvetted : ∀ text, Vetted lib (Utf8.encode text) := vetted_encode
  obtain ⟨_, hok, hverdict⟩ := hvetted text
  obtain ⟨_, hok', hverdict'⟩ := hvetted text'
  obtain rfl := Except.ok.inj (hload.symm.trans hok)
  obtain rfl := Except.ok.inj (hload'.symm.trans hok')
  rw [Bool.eq_iff_iff, hverdict, hverdict']
  refine exists_congr fun addr => and_congr_right fun _ => exists_congr fun line => and_congr_left fun hnames => ?_
  exact hlines line ⟨addr, hnames⟩

/-- The feed is read, and its lines decide every verdict, if and only if its bytes are the encoding of a
text; and two feeds that are read say the same as soon as the same lines of them name addresses. -/
theorem vetted_iff (lib : FeedLib) (content : List UInt8) :
    (Vetted lib content ↔ ∃ text, content = Utf8.encode text) ∧
      ∀ content' networks networks', loadFeed lib (some content) = .ok networks →
        loadFeed lib (some content') = .ok networks' →
        (∀ line, (∃ addr, lib.Names line addr) → (line ∈ feedLines content ↔ line ∈ feedLines content')) →
        ∀ ip, (checkReputation lib.toIpLib networks ip).isMalicious =
          (checkReputation lib.toIpLib networks' ip).isMalicious := by
  refine ⟨⟨?_, ?_⟩, fun content' networks networks' hload hload' hlines => isMalicious_congr hload hload' hlines⟩
  · rintro ⟨networks, hload, -⟩
    exact encode_of_loadFeed hload
  · rintro ⟨text, rfl⟩
    exact vetted_encode text

/-- Addresses are their texts, and a network is one address. -/
def FeedLib.hosts : FeedLib where
  Addr := String
  Net := String
  ipAddress := some
  isPrivate _ := false
  isLoopback _ := false
  isReserved _ := false
  isLinkLocal _ := false
  contains net addr := net = addr
  ipNetwork := some

/-- A comment and an address. -/
theorem vetted_iff_comment : Vetted .hosts (Utf8.encode "# botnet\n8.8.8.8\n") :=
  (vetted_iff .hosts _).1.mpr ⟨_, rfl⟩

/-- The same with a comment in Latin-1, of which the byte 0xE9 is no text. -/
theorem not_vetted_latin1 : ¬ ∀ (lib : FeedLib) (content : List UInt8), Vetted lib content := by
  intro h
  obtain ⟨networks, hload, -⟩ := h .hosts ([0x23, 0x20, 0xE9, 0x0A] ++ Utf8.encode "8.8.8.8")
  have hlost := Utf8.exists_encode_iff.mp (encode_of_loadFeed hload)
  exact absurd hlost (by decide)

end Feed

end SentinelSsh.Core
