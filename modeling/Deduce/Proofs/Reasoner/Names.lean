import Deduce.Proofs.Reasoner.Construction

/-!
# Which texts are names

An identifier starts with a letter of the basic alphabet or an underscore and goes on with such
letters, digits, underscores, dots and hyphens (`IsIdentifier`).  The pattern that is shown when a name
is refused (`Text.Pattern.name`) asks for an identifier up to the end of the text, but the end of a
pattern also matches in front of a line break that is the last character.  Names are checked in the
way of this pattern (`isName_iff_matches`), so an identifier followed by one line break is accepted
as well (`names_are_identifiers`).
-/

namespace Deduce

/-! ### Patterns of texts -/

namespace Text

/-- A set of characters, given by ranges. -/
abbrev CharClass := List (Char × Char)

/-- A character lies in one of the ranges. -/
def CharClass.Has (ranges : CharClass) (c : Char) : Prop := ∃ r ∈ ranges, r.1 ≤ c ∧ c ≤ r.2

/-- A piece of a pattern. -/
inductive Piece where
  /-- The start of the text. -/
  | start
  /-- The end of the text, or the place before a line break at its end. -/
  | finish
  /-- One character of a class. -/
  | one (ranges : CharClass)
  /-- Any number of characters of a class. -/
  | many (ranges : CharClass)

/-- A pattern is a sequence of pieces. -/
abbrev Pattern := List Piece

namespace Pattern

/-- The pieces match one after the other, from the characters `ahead` on; those before them have been
passed already, and some may be left at the end. -/
def Matches : Pattern → (passed ahead : List Char) → Prop
  | [], _, _ => True
  | .start :: ps, passed, ahead => passed = [] ∧ Matches ps passed ahead
  | .finish :: ps, passed, ahead => (ahead = [] ∨ ahead = ['\n']) ∧ Matches ps passed ahead
  | .one ranges :: ps, passed, ahead =>
    ∃ c rest, ahead = c :: rest ∧ ranges.Has c ∧ Matches ps (passed ++ [c]) rest
  | .many ranges :: ps, passed, ahead =>
    ∃ taken rest, ahead = taken ++ rest ∧ (∀ c ∈ taken, ranges.Has c) ∧
      Matches ps (passed ++ taken) rest

/-- A range as it is written in a pattern. -/
def renderRange (r : Char × Char) : String :=
  if r.1 ≠ r.2 then r.1.toString ++ "-" ++ r.2.toString
  else if r.1 = '-' then "\\-" else r.1.toString

/-- A class as it is written in a pattern. -/
def renderClass (ranges : CharClass) : String := "[" ++ String.join (ranges.map renderRange) ++ "]"

/-- A piece as it is written in a pattern. -/
def renderPiece : Piece → String
  | .start => "^"
  | .finish => "$"
  | .one ranges => renderClass ranges
  | .many ranges => renderClass ranges ++ "*"

/-- A pattern as it is written. -/
def render (p : Pattern) : String := String.join (p.map renderPiece)

/-- The pattern of names. -/
def name : Pattern :=
  [.start, .one [('A', 'Z'), ('a', 'z'), ('_', '_')],
    .many [('A', 'Z'), ('a', 'z'), ('0', '9'), ('_', '_'), ('.', '.'), ('-', '-')], .finish]

end Pattern

end Text

open Text

/-! ### Identifiers -/

/-- A letter of the basic alphabet. -/
def IsLetter (c : Char) : Prop := 'A' ≤ c ∧ c ≤ 'Z' ∨ 'a' ≤ c ∧ c ≤ 'z'

/-- A decimal digit. -/
def IsDigit (c : Char) : Prop := '0' ≤ c ∧ c ≤ '9'

/-- A letter or an underscore, and then letters, digits, underscores, dots and hyphens. -/
def IsIdentifier : List Char → Prop
  | [] => False
  | c :: cs => (IsLetter c ∨ c = '_') ∧
    ∀ d ∈ cs, IsLetter d ∨ IsDigit d ∨ d = '_' ∨ d = '.' ∨ d = '-'

section Characters

variable {c : Char}

theorem isAlpha_iff : c.isAlpha = true ↔ IsLetter c := by
  delta Char.isAlpha Char.isUpper Char.isLower
  simp [IsLetter, Char.le_def]

theorem isDigit_iff : c.isDigit = true ↔ IsDigit c := by
  simp [Char.isDigit, IsDigit, Char.le_def]

theorem isNameStart_iff : isNameStart c = true ↔ IsLetter c ∨ c = '_' := by
  simp [isNameStart, isAlpha_iff]

theorem isNamePart_iff :
    isNamePart c = true ↔ IsLetter c ∨ IsDigit c ∨ c = '_' ∨ c = '.' ∨ c = '-' := by
  simp [isNamePart, Char.isAlphanum, isAlpha_iff, isDigit_iff, or_assoc]

theorem le_and_le_iff {d : Char} : d ≤ c ∧ c ≤ d ↔ c = d := by
  constructor
  · rintro ⟨hd, hc⟩
    exact Char.le_antisymm hc hd
  · rintro rfl
    exact ⟨Char.le_refl c, Char.le_refl c⟩

theorem has_start_iff :
    CharClass.Has [('A', 'Z'), ('a', 'z'), ('_', '_')] c ↔ IsLetter c ∨ c = '_' := by
  simp [CharClass.Has, IsLetter, le_and_le_iff, or_assoc]

theorem has_part_iff :
    CharClass.Has [('A', 'Z'), ('a', 'z'), ('0', '9'), ('_', '_'), ('.', '.'), ('-', '-')] c ↔
      IsLetter c ∨ IsDigit c ∨ c = '_' ∨ c = '.' ∨ c = '-' := by
  simp [CharClass.Has, IsLetter, IsDigit, le_and_le_iff, or_assoc]

end Characters

variable {cs w : List Char}

theorem isIdentifier_cons {c : Char} :
    IsIdentifier (c :: cs) ↔ (isNameStart c && cs.all isNamePart) = true := by
  rw [Bool.and_eq_true, isNameStart_iff, List.all_eq_true]
  simp only [isNamePart_iff, IsIdentifier]

instance : DecidablePred IsIdentifier
  | [] => instDecidableFalse
  | _ :: _ => decidable_of_iff _ isIdentifier_cons.symm

theorem not_mem_of_isIdentifier (h : IsIdentifier w) : '\n' ∉ w := by
  cases w with
  | nil => exact h.elim
  | cons c cs =>
    rw [isIdentifier_cons, Bool.and_eq_true, List.all_eq_true] at h
    intro hmem
    rcases List.mem_cons.1 hmem with rfl | hmem
    · exact absurd h.1 (by decide)
    · exact absurd (h.2 _ hmem) (by decide)

/-! ### The line break at the end -/

theorem dropFinalBreak_of_not_mem (h : '\n' ∉ cs) : dropFinalBreak cs = cs := by
  fun_induction dropFinalBreak cs with
  | case1 => rfl
  | case2 => simp at h
  | case3 c cs _ ih => rw [ih fun hmem => h (List.mem_cons_of_mem c hmem)]

theorem dropFinalBreak_append_break (cs : List Char) : dropFinalBreak (cs ++ ['\n']) = cs := by
  induction cs with
  | nil => rfl
  | cons c cs ih =>
    rw [List.cons_append, dropFinalBreak, ih]
    simp

theorem eq_dropFinalBreak (cs : List Char) :
    cs = dropFinalBreak cs ∨ cs = dropFinalBreak cs ++ ['\n'] := by
  fun_induction dropFinalBreak cs with
  | case1 => exact .inl rfl
  | case2 => exact .inr rfl
  | case3 c cs _ ih => exact ih.imp (congrArg (c :: ·)) (congrArg (c :: ·))

theorem isName_eq (cs : List Char) : isName cs = true ↔ IsIdentifier (dropFinalBreak cs) := by
  unfold isName
  split
  · rename_i h
    simp [h, IsIdentifier]
  · rename_i c cs h
    rw [h, isIdentifier_cons]

theorem isName_iff :
    isName cs = true ↔ ∃ w, IsIdentifier w ∧ (cs = w ∨ cs = w ++ ['\n']) := by
  rw [isName_eq]
  constructor
  · intro h
    exact ⟨_, h, eq_dropFinalBreak cs⟩
  · rintro ⟨w, hw, rfl | rfl⟩
    · rwa [dropFinalBreak_of_not_mem (not_mem_of_isIdentifier hw)]
    · rwa [dropFinalBreak_append_break]

/-! ### Names -/

theorem matches_name_iff :
    Pattern.name.Matches [] cs ↔ ∃ w, IsIdentifier w ∧ (cs = w ∨ cs = w ++ ['\n']) := by
  simp only [Pattern.name, Pattern.Matches, has_start_iff, has_part_iff, true_and, and_true]
  constructor
  · rintro ⟨c, _, rfl, hc, taken, rest, rfl, htaken, hrest⟩
    refine ⟨c :: taken, ⟨hc, htaken⟩, ?_⟩
    rcases hrest with rfl | rfl
    · exact .inl (by rw [List.append_nil])
    · exact .inr rfl
  · rintro ⟨w, hw, hcs⟩
    cases w with
    | nil => exact hw.elim
    | cons c taken =>
      rcases hcs with rfl | rfl
      · exact ⟨c, taken, rfl, hw.1, taken, [], (List.append_nil taken).symm, hw.2, .inl rfl⟩
      · exact ⟨c, taken ++ ['\n'], rfl, hw.1, taken, ['\n'], rfl, hw.2, .inr rfl⟩

/-- Names are checked in the way of the pattern. -/
theorem isName_iff_matches : isName cs = true ↔ Pattern.name.Matches [] cs := by
  rw [isName_iff, matches_name_iff]

theorem nameErrors_eq_nil_iff {s : String} :
    nameErrors (.text s) = [] ↔ isName s.toList = true := by
  rw [nameErrors]
  split
  · rename_i hempty
    have hs : s.toList = [] := String.toList_eq_nil_iff.2 (String.isEmpty_iff.1 hempty)
    simp [hs, isName, dropFinalBreak]
  · split <;> simp_all

namespace Reasoner

/-- A system whose other arguments are in order is built under a name that is accepted, and under no
other. -/
theorem exists_create_iff {c : Catalog} {b : Blueprint} {name description : String}
    {settings : Settings} {facts : List Expr} {rules : List Rule}
    (h : b.Describes c name description settings facts rules) (s : String) :
    (∃ r, create c { b with name := .text s } = .ok r ∧ r.name = s) ↔
      nameErrors (.text s) = [] := by
  constructor
  · rintro ⟨r, hr, -⟩
    have hfacts : b.facts ≠ .text "" := ne_empty_of_holdsFacts h.facts
    obtain ⟨_, _, _, _, _, hdescribes, -⟩ :=
      (create_eq_ok_iff (b := { b with name := .text s }) hfacts).1 hr
    exact hdescribes.name.2
  · intro hs
    have hdescribes : Blueprint.Describes c { b with name := .text s } s description settings
        facts rules := { h with name := ⟨rfl, hs⟩ }
    obtain ⟨r, hr, hname, -⟩ := create_of_describes hdescribes
    exact ⟨r, hr, hname⟩

end Reasoner

/-- **Names are identifiers, but for a line break.**  A text is accepted as a name if and only if it
matches the pattern of names, which is the one shown when it is refused; it is then an identifier, or
an identifier followed by a single line break.  Where the other arguments are in order, a system is
built under such a name and under no other. -/
theorem names_are_identifiers (s : String) :
    (nameErrors (.text s) = [] ↔ Pattern.name.Matches [] s.toList) ∧
    Pattern.name.render = namePattern ∧
    (nameErrors (.text s) = [] ↔
      IsIdentifier s.toList ∨ ∃ w : String, IsIdentifier w.toList ∧ s = w ++ "\n") ∧
    ∀ c b name description settings facts rules,
      Blueprint.Describes c b name description settings facts rules →
      ((∃ r, Reasoner.create c { b with name := .text s } = .ok r ∧ r.name = s) ↔
        IsIdentifier s.toList ∨ ∃ w : String, IsIdentifier w.toList ∧ s = w ++ "\n") := by
  have haccepted : nameErrors (.text s) = [] ↔
      IsIdentifier s.toList ∨ ∃ w : String, IsIdentifier w.toList ∧ s = w ++ "\n" := by
    rw [nameErrors_eq_nil_iff, isName_iff]
    constructor
    · rintro ⟨w, hw, hs | hs⟩
      · exact .inl (hs ▸ hw)
      · refine .inr ⟨String.ofList w, by rwa [String.toList_ofList], String.toList_injective ?_⟩
        rw [hs, String.toList_append, String.toList_ofList]
        rfl
    · rintro (hs | ⟨w, hw, rfl⟩)
      · exact ⟨_, hs, .inl rfl⟩
      · exact ⟨w.toList, hw, .inr String.toList_append⟩
  refine ⟨nameErrors_eq_nil_iff.trans isName_iff_matches, by decide, haccepted, ?_⟩
  intro c b name description settings facts rules h
  rw [Reasoner.exists_create_iff h, haccepted]

/-- A name with all kinds of characters is accepted, and one with a letter of another alphabet is
not. -/
theorem names_are_identifiers_dotted :
    let b : Blueprint := ⟨.text "demo", .nothing, .many [], .text "", .value .nothing⟩
    b.Describes .initial "demo" "" .default [] [] ∧
      (∃ r, Reasoner.create .initial { b with name := .text "_a-Z.09" } = .ok r ∧
        r.name = "_a-Z.09") ∧
      ¬ ∃ r, Reasoner.create .initial { b with name := .text "aé" } = .ok r ∧ r.name = "aé" := by
  intro b
  have hdescribes : b.Describes .initial "demo" "" .default [] [] :=
    ⟨⟨rfl, by decide⟩, rfl, .inr ⟨rfl, rfl⟩, .inl ⟨rfl, rfl⟩, [], rfl, rfl⟩
  have hdotted := (names_are_identifiers "_a-Z.09").2.2.2 _ _ _ _ _ _ _ hdescribes
  have haccented := (names_are_identifiers "aé").2.2.2 _ _ _ _ _ _ _ hdescribes
  refine ⟨hdescribes, hdotted.2 (.inl (by decide)), ?_⟩
  rw [haccented]
  rintro (h | ⟨w, -, hw⟩)
  · exact absurd h (by decide)
  · have hlast := congrArg (fun s : String => s.toList.getLast?) hw
    simp at hlast

/-- A single line break after an identifier is accepted, and becomes part of the name of a system. -/
theorem break_after_identifier_accepted :
    nameErrors (.text "a\n") = [] ∧ ¬ IsIdentifier "a\n".toList ∧
      ∃ r, Reasoner.create .initial
        ⟨.text "a\n", .nothing, .many [], .text "", .value .nothing⟩ = .ok r ∧ r.name = "a\n" :=
  ⟨by decide, by decide, _, rfl, rfl⟩

end Deduce
