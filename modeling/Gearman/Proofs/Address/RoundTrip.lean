import Gearman.Address
import Gearman.Proofs.Text.Decimal

/-!
Addresses against their text forms.

A text form without brackets says of its host that it is not empty, holds no colon and starts with no
bracket; within brackets a host may be anything without a closing one. Brackets are written for a host
with a colon only. So a host that needs brackets for another reason is read, but its own text form is
read as something else or not at all.
-/

namespace Gearman

namespace Text

/-- A trimmed text does not start with white space. -/
theorem isBlank_head?_trim {s : List Char} : ∀ c ∈ (trim s).head?, isBlank c = false := by
  intro c hc
  have hprefix : trim s <+: s.dropWhile isBlank := by
    have hsuffix := List.dropWhile_suffix isBlank (l := (s.dropWhile isBlank).reverse)
    simpa [trim] using List.reverse_prefix.2 hsuffix
  obtain ⟨rest, hrest⟩ := hprefix
  have hhead : (s.dropWhile isBlank).head? = some c := by
    rw [← hrest, List.head?_append, Option.mem_def.1 hc]
    rfl
  have := List.head?_dropWhile_not isBlank s
  rw [hhead] at this
  simpa using this

end Text

namespace Address

variable {mark : Char} {s before rest host port : List Char} {a : Address} {p : UInt16}

theorem splitAt?_of_notMem (h : mark ∉ s) : splitAt? mark s = none := by
  have hall : s.dropWhile (· ≠ mark) = [] := by
    induction s with
    | nil => rfl
    | cons c rest ih =>
      simp only [List.mem_cons, not_or] at h
      rw [List.dropWhile_cons_of_pos (by simpa using Ne.symm h.1), ih h.2]
  rw [splitAt?, hall]

theorem splitAt?_append (h : mark ∉ before) (rest : List Char) :
    splitAt? mark (before ++ mark :: rest) = some (before, rest) := by
  have hall : ∀ c ∈ before, decide (c ≠ mark) = true := by
    intro c hc
    rw [decide_eq_true_eq]
    rintro rfl
    exact h hc
  simp only [splitAt?, List.dropWhile_append_of_pos hall, List.takeWhile_append_of_pos hall]
  simp

/-- A text without the mark is not split, and any other at the first mark. -/
theorem splitAt?_eq_none : splitAt? mark s = none ↔ mark ∉ s := by
  refine ⟨fun hnone hmark => ?_, splitAt?_of_notMem⟩
  obtain ⟨before, rest, rfl, hbefore⟩ := List.eq_append_cons_of_mem hmark
  rw [splitAt?_append hbefore] at hnone
  contradiction

theorem splitAt?_eq_some :
    splitAt? mark s = some (before, rest) ↔ mark ∉ before ∧ s = before ++ mark :: rest := by
  constructor
  · intro hsome
    have hmark : mark ∈ s := Decidable.byContradiction fun h => by
      rw [splitAt?_of_notMem h] at hsome
      contradiction
    obtain ⟨first, second, rfl, hfirst⟩ := List.eq_append_cons_of_mem hmark
    rw [splitAt?_append hfirst] at hsome
    cases hsome
    exact ⟨hfirst, rfl⟩
  · rintro ⟨hbefore, rfl⟩
    exact splitAt?_append hbefore rest

/-- A host that is written without brackets. -/
structure IsBare (host : List Char) : Prop where
  ne_nil : host ≠ []
  colon : ':' ∉ host
  bracket : host.head? ≠ some '['

/-- The text forms of an address, with no white space around them. -/
inductive Denotes : List Char → Address → Prop
  | host {host : List Char} (h : IsBare host) :
    Denotes host ⟨String.ofList host, defaultPort⟩
  | hostPort {host port : List Char} {p : UInt16} (h : IsBare host)
    (hport : parsePort? port = some p) :
    Denotes (host ++ ':' :: port) ⟨String.ofList host, p⟩
  | bracketed {host : List Char} (h : ']' ∉ host) :
    Denotes ('[' :: (host ++ [']'])) ⟨String.ofList host, defaultPort⟩
  | bracketedPort {host port : List Char} {p : UInt16} (h : ']' ∉ host)
    (hport : parsePort? port = some p) :
    Denotes ('[' :: (host ++ ']' :: ':' :: port)) ⟨String.ofList host, p⟩

theorem denotes_of_parseTrimmed? (h : parseTrimmed? s = some a) : Denotes s a := by
  unfold parseTrimmed? at h
  split at h
  · contradiction
  · next rest =>
    split at h
    · contradiction
    · next host hsplit =>
      obtain ⟨hhost, rfl⟩ := splitAt?_eq_some.1 hsplit
      cases h
      exact .bracketed hhost
    · next host port hsplit =>
      obtain ⟨hhost, rfl⟩ := splitAt?_eq_some.1 hsplit
      obtain ⟨p, hport, rfl⟩ := Option.map_eq_some_iff.1 h
      exact .bracketedPort hhost hport
    · contradiction
  · next hne hbracket =>
    have hhead : s.head? ≠ some '[' := by
      intro hs
      obtain ⟨rest, rfl⟩ := List.head?_eq_some_iff.1 hs
      exact hbracket rest rfl
    split at h
    · next hsplit =>
      cases h
      exact .host ⟨hne, splitAt?_eq_none.1 hsplit, hhead⟩
    · contradiction
    · next host port hne' hsplit =>
      obtain ⟨hhost, rfl⟩ := splitAt?_eq_some.1 hsplit
      obtain ⟨p, hport, rfl⟩ := Option.map_eq_some_iff.1 h
      obtain ⟨c, tail, rfl⟩ := List.exists_cons_of_ne_nil hne'
      exact .hostPort ⟨by simp, hhost, hhead⟩ hport

/-- Without a bracket in front, a text is split at its first colon. -/
theorem parseTrimmed?_of_head? (hne : s ≠ []) (hhead : s.head? ≠ some '[') : parseTrimmed? s =
    match splitAt? ':' s with
    | none => some ⟨String.ofList s, defaultPort⟩
    | some ([], _) => none
    | some (host, port) => (parsePort? port).map (⟨String.ofList host, ·⟩) := by
  unfold parseTrimmed?
  split
  · contradiction
  · contradiction
  · rfl

theorem Denotes.parseTrimmed? (h : Denotes s a) : parseTrimmed? s = some a := by
  cases h with
  | host h => rw [parseTrimmed?_of_head? h.ne_nil h.bracket, splitAt?_of_notMem h.colon]
  | @hostPort host port p h hport =>
    obtain ⟨c, tail, rfl⟩ := List.exists_cons_of_ne_nil h.ne_nil
    have hhead : (c :: tail ++ ':' :: port).head? ≠ some '[' := h.bracket
    rw [parseTrimmed?_of_head? (by simp) hhead, splitAt?_append h.colon]
    simp only [hport, Option.map_some]
  | bracketed h => simp only [Address.parseTrimmed?, splitAt?_append h]
  | bracketedPort h hport =>
    simp only [Address.parseTrimmed?, splitAt?_append h, hport, Option.map_some]

/-- What is read are the text forms, in which white space may be around them. -/
theorem parse_eq_ok {s : String} : parse s = .ok a ↔ Denotes (Text.trim s.toList) a := by
  have hparse : parse s = .ok a ↔ parseTrimmed? (Text.trim s.toList) = some a := by
    simp only [parse]
    cases parseTrimmed? (Text.trim s.toList) <;> simp
  rw [hparse]
  exact ⟨denotes_of_parseTrimmed?, Denotes.parseTrimmed?⟩

theorem parsePort?_toDigits (p : UInt16) : parsePort? (Nat.toDigits 10 p.toNat) = some p := by
  have hfits : p.toNat ≤ 65535 := Nat.le_of_lt_succ p.toNat_lt_size
  rw [parsePort?, Text.Decimal.parse?_toDigits hfits, Option.map_some, Nat.toUInt16_eq,
    UInt16.ofNat_toNat]

/-- The characters of the text form. -/
theorem toList_text (a : Address) : a.text.toList =
    if ':' ∈ a.host.toList then
      '[' :: (a.host.toList ++ ']' :: ':' :: Nat.toDigits 10 a.port.toNat)
    else a.host.toList ++ ':' :: Nat.toDigits 10 a.port.toNat := by
  have hport : (toString a.port).toList = Nat.toDigits 10 a.port.toNat := by simp [toString, Nat.repr]
  rw [text]
  split
  · simp [hport]
  · simp [hport]

/-- A text form ends in the digits of the port, so that white space is trimmed only off a host that
stands at its start. -/
theorem trim_text (a : Address) : Text.trim a.text.toList =
    if ':' ∈ a.host.toList then
      '[' :: (a.host.toList ++ ']' :: ':' :: Nat.toDigits 10 a.port.toNat)
    else a.host.toList.dropWhile Text.isBlank ++ ':' :: Nat.toDigits 10 a.port.toNat := by
  have hdigits : ∀ c ∈ Nat.toDigits 10 a.port.toNat, c ∈ Text.digits := fun c => Text.mem_toDigits
  have htrim : ∀ front : List Char, Text.trim (front ++ Nat.toDigits 10 a.port.toNat) =
      front.dropWhile Text.isBlank ++ Nat.toDigits 10 a.port.toNat :=
    Text.trim_append_digits hdigits Nat.toDigits_ne_nil
  rw [toList_text]
  split
  · have hfront := htrim ('[' :: (a.host.toList ++ [']', ':']))
    rw [List.dropWhile_cons_of_neg (by decide)] at hfront
    simpa using hfront
  · have hfront := htrim (a.host.toList ++ [':'])
    have hcolon : (a.host.toList ++ [':']).dropWhile Text.isBlank =
        a.host.toList.dropWhile Text.isBlank ++ [':'] := by
      rw [List.dropWhile_append]
      split
      · next hempty =>
        rw [List.isEmpty_iff.1 hempty]
        rfl
      · rfl
    rw [hcolon] at hfront
    simpa using hfront

/-- The host of a text form with brackets ends at the first closing one. -/
theorem Denotes.notMem_of_bracket (h : Denotes ('[' :: s) a) : ']' ∉ a.host.toList := by
  generalize htext : '[' :: s = text at h
  cases h with
  | host h => exact absurd (htext ▸ rfl) h.bracket
  | @hostPort host port p h _ =>
    obtain ⟨c, tail, rfl⟩ := List.exists_cons_of_ne_nil h.ne_nil
    cases htext
    exact absurd rfl h.bracket
  | bracketed h => simpa using h
  | bracketedPort h _ => simpa using h

/-- The first colon of a text form without brackets ends the host. -/
theorem Denotes.eq_of_colon (hcolon : ':' ∉ a.host.toList) (hs : ':' ∉ s)
    (h : Denotes (s ++ ':' :: port) a) :
    (s = a.host.toList ∧ IsBare s) ∨ s = '[' :: (a.host.toList ++ [']']) := by
  generalize htext : s ++ ':' :: port = text at h
  cases h with
  | host h =>
    refine absurd ?_ h.colon
    rw [← htext]
    simp
  | @hostPort host port' p h _ =>
    have hsplit := splitAt?_append hs port
    rw [htext, splitAt?_append h.colon] at hsplit
    cases hsplit
    exact .inl ⟨by simp, h⟩
  | @bracketed host h =>
    have hmem : ':' ∈ '[' :: (host ++ [']']) := by
      rw [← htext]
      simp
    simp only [String.toList_ofList] at hcolon
    simp [hcolon] at hmem
  | @bracketedPort host port' p h _ =>
    simp only [String.toList_ofList] at hcolon ⊢
    have hfront : ':' ∉ '[' :: (host ++ [']']) := by simp [hcolon]
    have hsplit := splitAt?_append hfront port'
    have htext' : '[' :: (host ++ [']']) ++ ':' :: port' = s ++ ':' :: port := by
      rw [htext]
      simp
    rw [htext', splitAt?_append hs] at hsplit
    cases hsplit
    exact .inr rfl

/-- A host that is written without brackets and starts with no white space. -/
structure IsPlain (host : List Char) : Prop extends IsBare host where
  blank : ∀ c ∈ host.head?, Text.isBlank c = false

/-- A text form with brackets is read as the same address if they hold no closing bracket. -/
theorem parse_text_of_colon (hcolon : ':' ∈ a.host.toList) :
    parse a.text = .ok a ↔ ']' ∉ a.host.toList := by
  rw [parse_eq_ok, trim_text, if_pos hcolon]
  refine ⟨Denotes.notMem_of_bracket, fun hbracket => ?_⟩
  have hdenotes := Denotes.bracketedPort hbracket (parsePort?_toDigits a.port)
  rwa [String.ofList_toList] at hdenotes

/-- A text form without brackets is read as the same address if its host is plain. -/
theorem parse_text_of_no_colon (hcolon : ':' ∉ a.host.toList) :
    parse a.text = .ok a ↔ IsPlain a.host.toList := by
  rw [parse_eq_ok, trim_text, if_neg hcolon]
  have hkept : ':' ∉ a.host.toList.dropWhile Text.isBlank :=
    fun hmem => hcolon ((List.dropWhile_sublist _).subset hmem)
  constructor
  · intro hdenotes
    rcases hdenotes.eq_of_colon hcolon hkept with ⟨hhost, hbare⟩ | hhost
    · rw [hhost] at hbare
      refine ⟨hbare, fun c hc => ?_⟩
      have hhead := List.head?_dropWhile_not Text.isBlank a.host.toList
      rw [hhost, Option.mem_def.1 hc] at hhead
      simpa using hhead
    · -- The brackets would have to be part of the host.
      have hlength := (List.dropWhile_sublist Text.isBlank (l := a.host.toList)).length_le
      rw [hhost, List.length_cons, List.length_append] at hlength
      omega
  · intro hplain
    have hkeep : a.host.toList.dropWhile Text.isBlank = a.host.toList := by
      obtain ⟨c, tail, hhost⟩ := List.exists_cons_of_ne_nil hplain.ne_nil
      have hc := hplain.blank c (by rw [hhost]; rfl)
      rw [hhost, List.dropWhile_cons_of_neg (by rw [hc]; decide)]
    have hdenotes := Denotes.hostPort hplain.toIsBare (parsePort?_toDigits a.port)
    rw [String.ofList_toList] at hdenotes
    rwa [hkeep]

theorem isPlain_iff {host : String} : IsPlain host.toList ↔
    ':' ∉ host.toList ∧ host ≠ "" ∧ host.toList.head? ≠ some '[' ∧
      ∀ c ∈ host.toList.head?, Text.isBlank c = false := by
  have hempty : host.toList = [] ↔ host = "" := String.toList_eq_nil_iff
  exact ⟨fun h => ⟨h.colon, fun he => h.ne_nil (hempty.2 he), h.bracket, h.blank⟩,
    fun ⟨hcolon, hne, hbracket, hblank⟩ => ⟨⟨fun he => hne (hempty.1 he), hcolon, hbracket⟩, hblank⟩⟩

/-- An address is read from its own text form if its host holds a colon and no closing bracket, or no
colon and is neither empty nor starts with an opening bracket or white space. The text form of any other
address is read as something else or not at all. -/
theorem parse_text_eq_ok_iff (host : String) (port : UInt16) :
    parse (text ⟨host, port⟩) = .ok ⟨host, port⟩ ↔
      (':' ∈ host.toList ∧ ']' ∉ host.toList) ∨
      (':' ∉ host.toList ∧ host ≠ "" ∧ host.toList.head? ≠ some '[' ∧
        ∀ c ∈ host.toList.head?, Text.isBlank c = false) := by
  rw [← isPlain_iff]
  by_cases hcolon : ':' ∈ host.toList
  · have hplain : ¬ IsPlain host.toList := fun h => h.colon hcolon
    rw [parse_text_of_colon hcolon]
    simp [hcolon, hplain]
  · rw [parse_text_of_no_colon hcolon]
    simp [hcolon]

/-- A host that was read holds no colon and is bare, or it was in brackets and holds no closing one. -/
theorem Denotes.host_cases (h : Denotes s a) :
    IsBare a.host.toList ∧ s.head? = a.host.toList.head? ∨
      s.head? = some '[' ∧ ']' ∉ a.host.toList := by
  cases h with
  | host h => exact .inl ⟨by simpa using h, by simp⟩
  | @hostPort host port p h _ =>
    obtain ⟨c, tail, rfl⟩ := List.exists_cons_of_ne_nil h.ne_nil
    exact .inl ⟨by simpa using h, by simp⟩
  | bracketed h => exact .inr ⟨rfl, by simpa using h⟩
  | bracketedPort h _ => exact .inr ⟨rfl, by simpa using h⟩

/-- An address that was read is read from its own text form as well, but for one whose host was in
brackets and holds no colon: of these, only plain hosts are read again. -/
theorem parse_text_of_parse {s : String} (h : parse s = .ok a) :
    ((Text.trim s.toList).head? ≠ some '[' → parse a.text = .ok a) ∧
      (parse a.text = .ok a ↔ ':' ∈ a.host.toList ∨ IsPlain a.host.toList) := by
  have hdenotes := parse_eq_ok.1 h
  constructor
  · intro hhead
    rcases hdenotes.host_cases with ⟨hbare, hsame⟩ | ⟨hbracket, -⟩
    · refine (parse_text_of_no_colon hbare.colon).2 ⟨hbare, fun c hc => ?_⟩
      exact Text.isBlank_head?_trim c (hsame ▸ hc)
    · exact absurd hbracket hhead
  · by_cases hcolon : ':' ∈ a.host.toList
    · rw [parse_text_of_colon hcolon]
      simp only [hcolon, true_or, iff_true]
      rcases hdenotes.host_cases with ⟨hbare, -⟩ | ⟨-, hbracket⟩
      · exact absurd hcolon hbare.colon
      · exact hbracket
    · rw [parse_text_of_no_colon hcolon]
      simp [hcolon]

/-- White space, a sign and a leading zero are gone, and the address is the same. -/
theorem parse_text_of_parse_signed :
    parse " jobs.local:+080\n" = .ok ⟨"jobs.local", 80⟩ ∧
      text ⟨"jobs.local", 80⟩ = "jobs.local:80" ∧
      parse "jobs.local:80" = .ok ⟨"jobs.local", 80⟩ := by
  have hread : parse " jobs.local:+080\n" = .ok ⟨"jobs.local", 80⟩ := rfl
  have htext : text ⟨"jobs.local", 80⟩ = "jobs.local:80" := by cbv
  refine ⟨hread, htext, ?_⟩
  rw [← htext]
  exact (parse_text_of_parse hread).1 (by decide)

/-- A host in brackets may be empty, but the text form of the address that is read is refused. -/
theorem empty_host_is_not_read_again :
    parse "[]:80" = .ok ⟨"", 80⟩ ∧ text ⟨"", 80⟩ = ":80" ∧
      parse ":80" = .error (.invalidAddress ":80") := by
  exact ⟨rfl, by cbv, rfl⟩

end Address

end Gearman
