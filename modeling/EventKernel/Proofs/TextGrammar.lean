import EventKernel.Text.Blank

set_option autoImplicit false

/-! Lines and words as parts of a text. What a reader makes of a text is one way, and the only one,
to put that text together again: of lines and what ends them, or of words and the gaps around
them. -/

namespace EventKernel.Text

/-- What ends a line. -/
inductive LineEnd where
  | feed
  | returnAndFeed
deriving DecidableEq, Repr

def LineEnd.chars : LineEnd → List Char
  | feed => ['\n']
  | returnAndFeed => ['\r', '\n']

/-- A text and its lines. Only the last line may lack an end, and is no line if it is empty. A
carriage return before a line feed is part of the end. -/
inductive Lined : List Char → List (List Char) → Prop
  | nothing : Lined [] []
  | last {line : List Char} (some : line ≠ []) (whole : '\n' ∉ line) : Lined line [line]
  | ended {line : List Char} (ending : LineEnd) {rest : List Char} {others : List (List Char)}
      (whole : '\n' ∉ line) (exact : ending = .feed → line.getLast? ≠ some '\r')
      (later : Lined rest others) : Lined (line ++ ending.chars ++ rest) (line :: others)

/-- A text and its words, with blank gaps around them. -/
inductive Worded : List Char → List (List Char) → Prop
  | blank {gap : List Char} (blank : ∀ char ∈ gap, isBlank char = true) : Worded gap []
  | word {gap word rest : List Char} {others : List (List Char)}
      (blank : ∀ char ∈ gap, isBlank char = true) (some : word ≠ [])
      (solid : ∀ char ∈ word, isBlank char = false)
      (apart : ∀ char ∈ rest.head?, isBlank char = true)
      (later : Worded rest others) : Worded (gap ++ word ++ rest) (word :: others)

private theorem lines_cons {char : Char} {rest : List Char} (inside : char ≠ '\n')
    (alone : char = '\r' → rest.head? ≠ some '\n') :
    lines (char :: rest) = match lines rest with
      | [] => [[char]]
      | line :: others => (char :: line) :: others := by
  apply lines.eq_4
  · intro later returns feeds
    apply alone returns
    rw [feeds]
    rfl
  · exact inside

private theorem lines_eq_nil {text : List Char} (none : lines text = []) : text = [] := by
  unfold lines at none
  split at none
  · rfl
  · cases none
  · cases none
  · split at none
    · cases none
    · cases none

private theorem lines_last {line : List Char} (some : line ≠ []) (whole : '\n' ∉ line) :
    lines line = [line] := by
  induction line with
  | nil => exact absurd rfl some
  | cons char rest ih =>
      rw [List.mem_cons, not_or] at whole
      obtain ⟨inside, restWhole⟩ := whole
      have alone : char = '\r' → rest.head? ≠ .some '\n' :=
        fun _ feeds => restWhole (List.mem_of_mem_head? feeds)
      rw [lines_cons (Ne.symm inside) alone]
      by_cases empty : rest = []
      · rw [empty]
        rfl
      · rw [ih empty restWhole]

private theorem lines_ended {line : List Char} (ending : LineEnd) (rest : List Char)
    (whole : '\n' ∉ line) (exact : ending = .feed → line.getLast? ≠ some '\r') :
    lines (line ++ ending.chars ++ rest) = line :: lines rest := by
  induction line with
  | nil =>
      cases ending with
      | feed => rfl
      | returnAndFeed => rfl
  | cons char later ih =>
      rw [List.mem_cons, not_or] at whole
      obtain ⟨inside, laterWhole⟩ := whole
      have alone : char = '\r' → (later ++ ending.chars ++ rest).head? ≠ some '\n' := by
        intro returns feeds
        cases later with
        | nil =>
            cases ending with
            | feed => exact exact rfl (by rw [returns]; rfl)
            | returnAndFeed => cases feeds
        | cons next others =>
            cases feeds
            exact laterWhole List.mem_cons_self
      rw [List.cons_append, List.cons_append, lines_cons (Ne.symm inside) alone, ih laterWhole]
      intro feeds returns
      cases later with
      | nil => cases returns
      | cons next others => exact exact feeds (by rw [List.getLast?_cons_cons]; exact returns)

theorem Lined.lines_eq {text : List Char} {all : List (List Char)} (lined : Lined text all) :
    lines text = all := by
  induction lined with
  | nothing => rfl
  | last some whole => exact lines_last some whole
  | ended ending whole exact _ ih => rw [lines_ended ending _ whole exact, ih]

private theorem Lined.cons {char : Char} {rest line : List Char} {others : List (List Char)}
    (lined : Lined rest (line :: others)) (inside : char ≠ '\n')
    (alone : char = '\r' → rest.head? ≠ some '\n') :
    Lined (char :: rest) ((char :: line) :: others) := by
  cases lined with
  | last some whole =>
      exact .last (List.cons_ne_nil _ _) (by simp [Ne.symm inside, whole])
  | ended ending whole exact later =>
      change Lined ((char :: line) ++ ending.chars ++ _) _
      refine .ended ending (by simp [Ne.symm inside, whole]) ?_ later
      intro feeds returns
      cases line with
      | nil =>
          rw [feeds] at alone
          exact alone (Option.some.inj returns) rfl
      | cons next more => exact exact feeds (by rw [← List.getLast?_cons_cons]; exact returns)

private theorem head_ne_feed {char : Char} {rest : List Char}
    (notEnded : ∀ later, char = '\r' → rest = '\n' :: later → False) :
    char = '\r' → rest.head? ≠ some '\n' := by
  intro returns feeds
  obtain ⟨later, shape⟩ := List.head?_eq_some_iff.mp feeds
  exact notEnded later returns shape

theorem lined_lines (text : List Char) : Lined text (lines text) := by
  induction text using lines.induct with
  | case1 => exact .nothing
  | case2 rest ih =>
      rw [lines]
      exact .ended .returnAndFeed List.not_mem_nil (fun feeds => nomatch feeds) ih
  | case3 rest ih =>
      rw [lines]
      exact .ended .feed List.not_mem_nil (fun _ returns => nomatch returns) ih
  | case4 char rest notEnded inside none =>
      have alone := head_ne_feed notEnded
      rw [lines_cons inside alone, none, lines_eq_nil none]
      exact .last (List.cons_ne_nil _ _) (by simpa using Ne.symm inside)
  | case5 char rest notEnded inside line others first ih =>
      have alone := head_ne_feed notEnded
      rw [lines_cons inside alone, first]
      rw [first] at ih
      exact ih.cons inside alone

/-- The lines of a text are the only ones that it is made of. -/
theorem lined_iff {text : List Char} {all : List (List Char)} :
    Lined text all ↔ lines text = all := by
  constructor
  · exact Lined.lines_eq
  · intro same
    rw [← same]
    exact lined_lines text

private theorem words_cons (char : Char) (rest : List Char) :
    words (char :: rest) =
      if isBlank char then words rest
      else if rest.head?.all isBlank then [char] :: words rest
      else match words rest with
        | [] => [[char]]
        | word :: others => (char :: word) :: others := by
  rw [words.eq_def]
  cases rest with
  | nil => rfl
  | cons next later => rfl

private theorem words_blank {char : Char} (rest : List Char) (blank : isBlank char = true) :
    words (char :: rest) = words rest := by
  rw [words_cons, if_pos blank]

private theorem words_gap {gap : List Char} (rest : List Char)
    (blank : ∀ char ∈ gap, isBlank char = true) : words (gap ++ rest) = words rest := by
  induction gap with
  | nil => rfl
  | cons char later ih =>
      obtain ⟨first, others⟩ := List.forall_mem_cons.mp blank
      rw [List.cons_append, words_blank _ first, ih others]

private theorem words_word {word : List Char} (rest : List Char) (some : word ≠ [])
    (solid : ∀ char ∈ word, isBlank char = false)
    (apart : ∀ char ∈ rest.head?, isBlank char = true) :
    words (word ++ rest) = word :: words rest := by
  induction word with
  | nil => exact absurd rfl some
  | cons char later ih =>
      obtain ⟨first, others⟩ := List.forall_mem_cons.mp solid
      rw [List.cons_append, words_cons, first, if_neg Bool.false_ne_true]
      cases later with
      | nil =>
          have ends : rest.head?.all isBlank = true := (Option.all_eq_true _ _).mpr apart
          rw [List.nil_append, if_pos ends]
      | cons next more =>
          have goes : isBlank next = false := others next List.mem_cons_self
          rw [ih (List.cons_ne_nil _ _) others]
          simp [goes]

theorem Worded.words_eq {text : List Char} {all : List (List Char)} (worded : Worded text all) :
    words text = all := by
  induction worded with
  | blank blank =>
      have gone := words_gap [] blank
      rw [List.append_nil] at gone
      exact gone
  | word blank some solid apart _ ih =>
      rw [List.append_assoc, words_gap _ blank, words_word _ some solid apart, ih]

private theorem Worded.cons_blank {char : Char} {rest : List Char} {all : List (List Char)}
    (worded : Worded rest all) (blank : isBlank char = true) : Worded (char :: rest) all := by
  cases worded with
  | blank gap => exact .blank (List.forall_mem_cons.mpr ⟨blank, gap⟩)
  | @word gap first later others gapBlank some solid apart further =>
      change Worded ((char :: gap) ++ first ++ later) _
      exact .word (List.forall_mem_cons.mpr ⟨blank, gapBlank⟩) some solid apart further

private theorem Worded.cons_word {char : Char} {rest : List Char} {all : List (List Char)}
    (worded : Worded rest all) (solid : isBlank char = false)
    (apart : ∀ next ∈ rest.head?, isBlank next = true) : Worded (char :: rest) ([char] :: all) := by
  have alone : ∀ other ∈ [char], isBlank other = false := by simpa using solid
  exact .word (List.forall_mem_nil _) (List.cons_ne_nil _ _) alone apart worded

private theorem Worded.cons_solid {char next : Char} {rest : List Char} {all : List (List Char)}
    (worded : Worded (next :: rest) all) (solid : isBlank char = false)
    (goes : isBlank next = false) :
    ∃ word others, all = word :: others ∧
      Worded (char :: next :: rest) ((char :: word) :: others) := by
  generalize shape : next :: rest = text at worded
  cases worded with
  | blank gap =>
      rw [← shape] at gap
      have blank := gap next List.mem_cons_self
      rw [goes] at blank
      cases blank
  | @word gap first later others blank some inside apart further =>
      cases gap with
      | cons head more =>
          cases shape
          have blank := blank next List.mem_cons_self
          rw [goes] at blank
          cases blank
      | nil =>
          refine ⟨first, others, rfl, ?_⟩
          change Worded ([] ++ (char :: first) ++ later) _
          exact .word (List.forall_mem_nil _) (List.cons_ne_nil _ _)
            (List.forall_mem_cons.mpr ⟨solid, inside⟩) apart further

theorem worded_words (text : List Char) : Worded text (words text) := by
  induction text with
  | nil => exact .blank (List.forall_mem_nil _)
  | cons char rest ih =>
      by_cases blank : isBlank char = true
      · rw [words_blank rest blank]
        exact ih.cons_blank blank
      · have solid := Bool.eq_false_iff.mpr blank
        rw [words_cons, if_neg blank]
        by_cases ends : rest.head?.all isBlank = true
        · rw [if_pos ends]
          exact ih.cons_word solid ((Option.all_eq_true _ _).mp ends)
        · rw [if_neg ends]
          cases rest with
          | nil => exact absurd rfl ends
          | cons next later =>
              have goes : isBlank next = false := by simpa using ends
              obtain ⟨word, others, same, longer⟩ := ih.cons_solid solid goes
              rw [same]
              exact longer

/-- The words of a text are the only ones that it is made of. -/
theorem worded_iff {text : List Char} {all : List (List Char)} :
    Worded text all ↔ words text = all := by
  constructor
  · exact Worded.words_eq
  · intro same
    rw [← same]
    exact worded_words text

private theorem Worded.append_blank {text gap : List Char} {all : List (List Char)}
    (worded : Worded text all) (blank : ∀ char ∈ gap, isBlank char = true) :
    Worded (text ++ gap) all := by
  induction worded with
  | blank before =>
      apply Worded.blank
      intro char member
      rcases List.mem_append.mp member with inside | after
      · exact before char inside
      · exact blank char after
  | @word before first rest _ gapBlank some solid apart _ ih =>
      rw [List.append_assoc]
      refine .word gapBlank some solid ?_ ih
      intro char next
      cases rest with
      | nil => exact blank char (List.mem_of_mem_head? next)
      | cons head later => exact apart char next

/-- However a line is ended, what is read of it has its words: a carriage return before a line feed
goes to the end, but it would be blank in the line. -/
theorem lines_of_ended {line : List Char} (ending : LineEnd) (rest : List Char)
    (whole : '\n' ∉ line) :
    ∃ kept, lines (line ++ ending.chars ++ rest) = kept :: lines rest ∧
      words kept = words line := by
  by_cases exact : ending = .feed → line.getLast? ≠ some '\r'
  · exact ⟨line, lines_ended ending rest whole exact, rfl⟩
  · rw [Classical.not_imp, Classical.not_not] at exact
    obtain ⟨rfl, returns⟩ := exact
    -- The return of the line and its feed are read as one end, and the line loses it.
    obtain ⟨kept, rfl⟩ := List.getLast?_eq_some_iff.mp returns
    have keptWhole : '\n' ∉ kept := fun inside => whole (List.mem_append_left _ inside)
    have returnBlank : ∀ char ∈ ['\r'], isBlank char = true := by simp; decide
    refine ⟨kept, ?_, ?_⟩
    · rw [← lines_ended .returnAndFeed rest keptWhole (fun feeds => nomatch feeds)]
      simp [LineEnd.chars]
    · exact ((worded_words kept).append_blank returnBlank).words_eq.symm

end EventKernel.Text
