import MeasuredIdentity.Text.Words
import Mathlib.Data.List.Basic
import Mathlib.Data.List.Forall2

/-!
How texts are made of words and of lines. A line spells its words: white space of any kind and
amount stands between them and may stand around them. A text consists of lines that end with a line
feed or with a carriage return and a line feed. Each text can be read in one way only, and this is
how it is cut.
-/
namespace MeasuredIdentity.Text

theorem pieces_eq_splitOnP {α : Type} (isSeparator : α → Bool) (s : List α) :
    pieces isSeparator s = s.splitOnP isSeparator := by
  induction s with
  | nil => rfl
  | cons x s ih =>
    rw [List.splitOnP_cons_eq_if_modifyHead, ← ih]
    cases hx : isSeparator x <;> simp [pieces, cut_cons, hx]

section Words

def IsSpace (s : List Char) : Prop := ∀ c ∈ s, isBlank c = true

structure IsWord (s : List Char) : Prop where
  ne_nil : s ≠ []
  plain : ∀ c ∈ s, isBlank c = false

/-- A line with these words. Behind a word the line ends, or it goes on with white space. -/
inductive Spells : List Char → List (List Char) → Prop
  | space {space : List Char} (hspace : IsSpace space) : Spells space []
  | last {space word : List Char} (hspace : IsSpace space) (hword : IsWord word) :
      Spells (space ++ word) [word]
  | more {space word rest : List Char} {c : Char} {words : List (List Char)}
      (hspace : IsSpace space) (hword : IsWord word) (hc : isBlank c = true)
      (hrest : Spells (c :: rest) words) : Spells (space ++ word ++ c :: rest) (word :: words)

variable {s front rest word : List Char} {c : Char} {ws : List (List Char)}

theorem words_append (hc : isBlank c = true) (front rest : List Char) :
    words (front ++ c :: rest) = words front ++ words rest := by
  rw [words, pieces_append hc, List.filter_append]
  rfl

theorem words_blank_cons (hc : isBlank c = true) (s : List Char) : words (c :: s) = words s :=
  words_append hc [] s

theorem words_space_append {space : List Char} (h : IsSpace space) (s : List Char) :
    words (space ++ s) = words s := by
  induction space with
  | nil => rfl
  | cons c space ih =>
    rw [List.cons_append, words_blank_cons (h c List.mem_cons_self)]
    exact ih fun d hd => h d (List.mem_cons_of_mem c hd)

theorem IsWord.words_eq (h : IsWord word) : words word = [word] := by
  rw [words, pieces_of_forall_not h.plain]
  exact List.filter_cons_of_pos (by simpa using h.ne_nil)

theorem Spells.words_eq (h : Spells s ws) : words s = ws := by
  induction h with
  | @space space hspace =>
    rw [← List.append_nil space, words_space_append hspace]
    rfl
  | last hspace hword => rw [words_space_append hspace, hword.words_eq]
  | more hspace hword hc _ ih =>
    rw [words_append hc, words_space_append hspace, hword.words_eq, ← words_blank_cons hc, ih]
    rfl

theorem Spells.blank_cons (hc : isBlank c = true) (h : Spells s ws) : Spells (c :: s) ws := by
  have hcons {space : List Char} (hspace : IsSpace space) : IsSpace (c :: space) :=
    List.forall_mem_cons.2 ⟨hc, hspace⟩
  cases h with
  | space hspace => exact .space (hcons hspace)
  | last hspace hword => exact .last (hcons hspace) hword
  | more hspace hword hd hrest => exact .more (hcons hspace) hword hd hrest

/-- A character in front of a line starts its first word or is a word of its own. -/
theorem Spells.exists_plain_cons (hc : isBlank c = false) (h : Spells s ws) :
    ∃ ws', Spells (c :: s) ws' := by
  have hnil : IsSpace [] := List.forall_mem_nil _
  cases s with
  | nil => exact ⟨_, .last hnil ⟨List.cons_ne_nil c [], List.forall_mem_singleton.2 hc⟩⟩
  | cons d rest =>
    cases hd : isBlank d with
    | true => exact ⟨_, .more hnil ⟨List.cons_ne_nil c [], List.forall_mem_singleton.2 hc⟩ hd h⟩
    | false =>
      -- The line does not start with white space, so its first word is longer by the character.
      have starts {space tail : List Char} (hspace : IsSpace space) (hline : d :: rest = space ++ tail) :
          space = [] := by
        cases space with
        | nil => rfl
        | cons e space =>
          obtain ⟨rfl, -⟩ := List.cons.inj hline
          exact nomatch hd.symm.trans (hspace d List.mem_cons_self)
      have longer {word : List Char} (hword : IsWord word) : IsWord (c :: word) :=
        ⟨List.cons_ne_nil c word, List.forall_mem_cons.2 ⟨hc, hword.plain⟩⟩
      generalize hline : d :: rest = line at h
      cases h with
      | space hspace =>
        obtain rfl := starts hspace (by rw [hline, List.append_nil])
        cases hline
      | last hspace hword =>
        obtain rfl := starts hspace hline
        exact ⟨_, .last hnil (longer hword)⟩
      | more hspace hword hb hrest =>
        obtain rfl := starts hspace (by rw [hline, List.append_assoc])
        exact ⟨_, .more hnil (longer hword) hb hrest⟩

theorem exists_spells (s : List Char) : ∃ ws, Spells s ws := by
  induction s with
  | nil => exact ⟨[], .space (List.forall_mem_nil _)⟩
  | cons c s ih =>
    obtain ⟨ws, h⟩ := ih
    cases hc : isBlank c with
    | true => exact ⟨ws, h.blank_cons hc⟩
    | false => exact h.exists_plain_cons hc

/-- A line spells the words it is cut into, and no others. -/
theorem spells_iff : Spells s ws ↔ words s = ws := by
  constructor
  · exact Spells.words_eq
  · rintro rfl
    obtain ⟨ws, h⟩ := exists_spells s
    rwa [h.words_eq]

end Words

section Lines

/-- A line without the carriage return that belongs to its end. -/
def withoutReturn (line : List Char) : List Char :=
  if line.getLast? = some '\r' then line.dropLast else line

/-- A text with these lines. A line feed ends a line, with the carriage return in front of it if
there is one; the last line may have no end. -/
inductive IsLines : List Char → List (List Char) → Prop
  | nil : IsLines [] []
  | unended {line : List Char} (hne : line ≠ []) (hline : '\n' ∉ line) : IsLines line [line]
  | ended {line rest : List Char} {lines : List (List Char)} (hline : '\n' ∉ line)
      (hrest : IsLines rest lines) : IsLines (line ++ '\n' :: rest) (withoutReturn line :: lines)

/-- The words of each line of a text. -/
def IsRows (s : List Char) (rows : List (List (List Char))) : Prop :=
  ∃ lines, IsLines s lines ∧ List.Forall₂ Spells lines rows

variable {s : List Char} {ls : List (List Char)} {rows : List (List (List Char))}

theorem ne_newline {line : List Char} (h : '\n' ∉ line) : ∀ c ∈ line, (c == '\n') = false :=
  fun _ hc => beq_false_of_ne fun heq => h (heq ▸ hc)

theorem lines_append_cons {line : List Char} (h : '\n' ∉ line) (rest : List Char) :
    lines (line ++ '\n' :: rest) = line :: lines rest :=
  pieces_append_cons (ne_newline h) (beq_self_eq_true '\n')

theorem map_words_lines_return (s : List Char) :
    (lines (s ++ ['\r'])).map words = (lines s).map words := by
  by_cases hs : '\n' ∈ s
  · obtain ⟨line, rest, rfl, hline⟩ := List.eq_append_cons_of_mem hs
    rw [List.append_assoc, List.cons_append, lines_append_cons hline, lines_append_cons hline,
      List.map_cons, List.map_cons, map_words_lines_return rest]
  · have hreturn : '\n' ∉ s ++ ['\r'] := by simpa using hs
    rw [lines, lines, pieces_of_forall_not (ne_newline hs), pieces_of_forall_not (ne_newline hreturn)]
    simp only [List.map_cons, List.map_nil]
    rw [words_append (by decide)]
    exact congrArg (fun ws => [ws]) (List.append_nil _)
termination_by s.length

/-- Lines that are joined with a line end keep their words. -/
theorem map_words_lines_append {newline : List Char} (h : newline = ['\n'] ∨ newline = ['\r', '\n'])
    (front back : List Char) : (lines (front ++ newline ++ back)).map words =
      (lines front).map words ++ (lines back).map words := by
  have hfeed (front : List Char) : lines (front ++ '\n' :: back) = lines front ++ lines back :=
    pieces_append rfl front back
  obtain rfl | rfl := h
  · rw [List.append_assoc, List.singleton_append, hfeed, List.map_append]
  · have hreturn : front ++ ['\r', '\n'] ++ back = (front ++ ['\r']) ++ '\n' :: back := by simp
    rw [hreturn, hfeed, List.map_append, map_words_lines_return]

theorem exists_isLines (s : List Char) : ∃ ls, IsLines s ls := by
  by_cases hs : '\n' ∈ s
  · obtain ⟨line, rest, rfl, hline⟩ := List.eq_append_cons_of_mem hs
    obtain ⟨ls, hrest⟩ := exists_isLines rest
    exact ⟨_, .ended hline hrest⟩
  · by_cases hne : s = []
    · subst hne
      exact ⟨[], .nil⟩
    · exact ⟨[s], .unended hne hs⟩
termination_by s.length

theorem IsLines.unique {ls' : List (List Char)} (h : IsLines s ls) (h' : IsLines s ls') :
    ls = ls' := by
  have feed (line rest : List Char) : '\n' ∈ line ++ '\n' :: rest :=
    List.mem_append_right line List.mem_cons_self
  induction h generalizing ls' with
  | nil =>
    generalize hs : [] = t at h'
    cases h' with
    | nil => rfl
    | unended hne => exact absurd hs.symm hne
    | ended => exact absurd hs.symm (List.append_ne_nil_of_right_ne_nil _ (List.cons_ne_nil _ _))
  | unended hne hline =>
    cases h' with
    | nil => exact absurd rfl hne
    | unended => rfl
    | ended => exact absurd (feed _ _) hline
  | @ended line rest ls hline _ ih =>
    generalize hs : line ++ '\n' :: rest = t at h'
    cases h' with
    | nil => exact absurd hs (List.append_ne_nil_of_right_ne_nil _ (List.cons_ne_nil _ _))
    | unended _ hline' => exact absurd (hs ▸ feed line rest) hline'
    | ended hline' hrest' =>
      have hcut := congrArg lines hs
      rw [lines_append_cons hline, lines_append_cons hline'] at hcut
      obtain ⟨rfl, -⟩ := List.cons.inj hcut
      obtain ⟨-, rfl⟩ := List.cons.inj (List.append_cancel_left hs)
      rw [ih hrest']

theorem words_withoutReturn (line : List Char) : words (withoutReturn line) = words line := by
  unfold withoutReturn
  split
  next h =>
    obtain ⟨front, rfl⟩ := List.getLast?_eq_some_iff.1 h
    rw [List.dropLast_concat, words_append (by decide)]
    exact (List.append_nil _).symm
  next => rfl

/-- Up to blank lines, the words of the lines are the words between the line feeds. -/
theorem IsLines.filter_map_words (h : IsLines s ls) :
    ((lines s).map words).filter (· ≠ []) = (ls.map words).filter (· ≠ []) := by
  induction h with
  | nil => rfl
  | unended _ hline => rw [lines, pieces_of_forall_not (ne_newline hline)]
  | ended hline _ ih =>
    rw [lines_append_cons hline, List.map_cons, List.map_cons, words_withoutReturn,
      List.filter_cons, List.filter_cons, ih]

theorem forall₂_spells_iff : List.Forall₂ Spells ls rows ↔ ls.map words = rows := by
  have hspells : Spells = fun line ws => words line = ws := by
    funext line ws
    exact propext spells_iff
  rw [hspells, ← List.forall₂_map_left_iff, List.forall₂_eq_eq_eq]

/-- Each text can be read in one way. -/
theorem existsUnique_isRows (s : List Char) : ∃! rows, IsRows s rows := by
  obtain ⟨ls, h⟩ := exists_isLines s
  refine ⟨ls.map words, ⟨ls, h, forall₂_spells_iff.2 rfl⟩, ?_⟩
  rintro rows ⟨ls', h', hrows⟩
  rw [h.unique h', forall₂_spells_iff.1 hrows]

theorem IsRows.filter_eq (h : IsRows s rows) :
    ((lines s).map words).filter (· ≠ []) = rows.filter (· ≠ []) := by
  obtain ⟨ls, hls, hrows⟩ := h
  rw [hls.filter_map_words, forall₂_spells_iff.1 hrows]

end Lines

end MeasuredIdentity.Text
