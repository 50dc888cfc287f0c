import Gearman.Json.Reader
import Gearman.Proofs.Json.Tokens

/-!
Written documents are read as they were written.

What a text spells is said for any text behind it and for any containers around it (`Spells`). So an
object is spelled because the values of its members are, whatever these are.
-/

namespace Gearman.Json

variable {text text' rest : List Char} {t : Token} {ts ts' : List Token} {document : Json}

/-- In front of the rest, the text is read as the tokens. -/
def Lexes (text : List Char) (ts : List Token) (rest : List Char) : Prop :=
  tokens (text ++ rest) = (tokens rest).map (ts ++ ·)

theorem lexes_of_scan (h : scan (text ++ rest) = some (t, rest)) : Lexes text [t] rest :=
  tokens_of_scan h

theorem Lexes.append (h : Lexes text ts (text' ++ rest)) (h' : Lexes text' ts' rest) :
    Lexes (text ++ text') (ts ++ ts') rest := by
  unfold Lexes at *
  rw [List.append_assoc, h, h', Option.map_map]
  congr 1
  funext more
  exact (List.append_assoc ..).symm

/-- The text is read as the document wherever a value may stand, if what follows is not read as a part
of it. -/
def Spells (text : List Char) (document : Json) : Prop :=
  ∃ ts, (∀ rest, EndsNumber rest → Lexes text ts rest) ∧
    ∀ frames more, build .value frames (ts ++ more) = build (.separator document) frames more

theorem parse_of_spells (h : Spells text document) : parse (String.ofList text) = some document := by
  obtain ⟨ts, htokens, hbuild⟩ := h
  have hall : tokens text = some ts := by
    have hend := htokens [] (by simp [EndsNumber])
    simpa [Lexes] using hend
  have hdocument : build .value [] ts = some document := by
    have hend := hbuild [] []
    rwa [List.append_nil] at hend
  rw [parse, String.toList_ofList, hall]
  exact hdocument

theorem spells_writeNat {n : Nat} (hn : n < UInt64.size) : Spells (writeNat n) (.number (some n)) :=
  ⟨[.number (some n)], fun _ h => lexes_of_scan (scan_writeNat hn h), fun _ _ => rfl⟩

theorem spells_writeString (s : String) : Spells (writeString s) (.string (some s)) :=
  ⟨[.string (some s)], fun rest _ => lexes_of_scan (scan_writeString s rest), fun _ _ => rfl⟩

/-- A member of an object: its key, and its value as text and as document. -/
structure Member where
  key : String
  text : List Char
  document : Json

namespace Member

/-- The member as an object holds it. -/
def entry (m : Member) : Option String × Json := (some m.key, m.document)

/-- The member as it is written. -/
def line (m : Member) : List Char := writeString m.key ++ ':' :: m.text

theorem lexes_line (m : Member) (h : Lexes m.text ts rest) :
    Lexes m.line (.string (some m.key) :: .colon :: ts) rest := by
  have hkey : Lexes (writeString m.key) [.string (some m.key)] (':' :: m.text ++ rest) :=
    lexes_of_scan (scan_writeString _ _)
  have hcolon : Lexes [':'] [.colon] (m.text ++ rest) := lexes_of_scan rfl
  exact hkey.append (hcolon.append h)

/-- The members of an object up to its closing brace. The first key is kept apart, since it may come
behind the opening brace or behind a comma. -/
theorem spells_lines (m : Member) (ms : List Member) (h : ∀ m' ∈ m :: ms, Spells m'.text m'.document) :
    ∃ ts, (∀ rest, Lexes (List.intercalate [','] ((m :: ms).map line) ++ ['\x7d'])
        (.string (some m.key) :: ts) rest) ∧
      ∀ members frames more, build (.colon members (some m.key)) frames (ts ++ more) =
        build (.separator (.object (members.reverse ++ (m :: ms).map entry))) frames more := by
  have hends : ∀ rest, EndsNumber ('\x7d' :: rest) ∧ EndsNumber (',' :: rest) := by
    simp [EndsNumber, Text.Decimal.isDigit]
  induction ms generalizing m with
  | nil =>
    obtain ⟨value, hvalue, hbuild⟩ := h m List.mem_cons_self
    refine ⟨.colon :: value ++ [.closeObject], fun rest => ?_, fun members frames more => ?_⟩
    · have hbrace : Lexes ['\x7d'] [.closeObject] rest := lexes_of_scan rfl
      have htext : List.intercalate [','] ([m].map line) = m.line := by simp [List.intercalate]
      rw [htext]
      exact (m.lexes_line (hvalue _ (hends rest).1)).append hbrace
    · calc build (.colon members (some m.key)) frames (.colon :: value ++ [.closeObject] ++ more)
          = build .value (.object members (some m.key) :: frames) (value ++ .closeObject :: more) := by
            simp [build, read]
        _ = build (.separator m.document) (.object members (some m.key) :: frames)
              (.closeObject :: more) := hbuild ..
        _ = build (.separator (.object (members.reverse ++ [m].map entry))) frames more := by
            simp [build, read, afterValue, entry]
  | cons m' ms ih =>
    obtain ⟨value, hvalue, hbuild⟩ := h m List.mem_cons_self
    obtain ⟨ts, hlines, hmembers⟩ := ih m' fun m'' hm => h m'' (List.mem_cons_of_mem _ hm)
    refine ⟨.colon :: value ++ .comma :: .string (some m'.key) :: ts, fun rest => ?_,
      fun members frames more => ?_⟩
    · have hcomma : Lexes [','] [.comma]
          (List.intercalate [','] ((m' :: ms).map line) ++ ['\x7d'] ++ rest) := lexes_of_scan rfl
      have htext : List.intercalate [','] ((m :: m' :: ms).map line) ++ ['\x7d'] =
          m.line ++ ([','] ++ (List.intercalate [','] ((m' :: ms).map line) ++ ['\x7d'])) := by
        simp [List.intercalate]
      rw [htext]
      exact (m.lexes_line (hvalue _ (hends _).2)).append (hcomma.append (hlines rest))
    · calc build (.colon members (some m.key)) frames
            (.colon :: value ++ .comma :: .string (some m'.key) :: ts ++ more)
          = build .value (.object members (some m.key) :: frames)
              (value ++ .comma :: .string (some m'.key) :: (ts ++ more)) := by
            simp [build, read]
        _ = build (.separator m.document) (.object members (some m.key) :: frames)
              (.comma :: .string (some m'.key) :: (ts ++ more)) := hbuild ..
        _ = build (.colon (m.entry :: members) (some m'.key)) frames (ts ++ more) := by
            simp [build, read, afterValue, entry]
        _ = build (.separator (.object ((m.entry :: members).reverse ++ (m' :: ms).map entry)))
              frames more := hmembers ..
        _ = build (.separator (.object (members.reverse ++ (m :: m' :: ms).map entry))) frames
              more := by simp

end Member

theorem spells_writeObject (ms : List Member) (h : ∀ m ∈ ms, Spells m.text m.document) :
    Spells (writeObject (ms.map fun m => (m.key, m.text))) (.object (ms.map Member.entry)) := by
  have htext : writeObject (ms.map fun m => (m.key, m.text)) =
      ['\x7b'] ++ (List.intercalate [','] (ms.map Member.line) ++ ['\x7d']) := by
    rw [writeObject, List.map_map]
    rfl
  rw [htext]
  cases ms with
  | nil =>
    refine ⟨[.openObject, .closeObject], fun rest _ => ?_, fun frames more => rfl⟩
    have hopen : Lexes ['\x7b'] [.openObject] (['\x7d'] ++ rest) := lexes_of_scan rfl
    have hclose : Lexes ['\x7d'] [.closeObject] rest := lexes_of_scan rfl
    exact hopen.append hclose
  | cons m ms =>
    obtain ⟨ts, hlines, hmembers⟩ := Member.spells_lines m ms h
    refine ⟨.openObject :: .string (some m.key) :: ts, fun rest _ => ?_, fun frames more => ?_⟩
    · have hopen : Lexes ['\x7b'] [.openObject]
          (List.intercalate [','] ((m :: ms).map Member.line) ++ ['\x7d'] ++ rest) := lexes_of_scan rfl
      exact hopen.append (hlines rest)
    · exact hmembers [] frames more

end Gearman.Json
