import LiteralGrammar.Proofs.Command.Grammar
import LiteralGrammar.Proofs.Numeral
import LiteralGrammar.Report

namespace LiteralGrammar

namespace Text

/-- The pieces between line breaks; what follows the last break is a piece too. -/
def pieces (text : String) : List String := (text.toList.splitOn '\n').map String.ofList

theorem pieces_lines {ls : List String} (whole : ∀ l ∈ ls, ¬ '\n' ∈ l.toList) :
    pieces (lines ls) = ls ++ [""] := by
  unfold pieces
  induction ls with
  | nil => rfl
  | cons l ls ih =>
    have first : (lines (l :: ls)).toList = l.toList ++ '\n' :: (lines ls).toList := by
      simp [lines, String.toList_join]
    have rest := ih fun k member => whole k (List.mem_cons_of_mem _ member)
    rw [first, List.splitOn_append_cons_self_of_not_mem (whole l List.mem_cons_self),
      List.map_cons, rest, String.ofList_toList]
    rfl

namespace Hex

theorem newline_not_mem_word (w : Word) : ¬ '\n' ∈ (word w).toList := by
  intro member
  simp only [word, String.toList_append, String.toList_ofList, List.mem_append] at member
  rcases member with mark | written
  · simp at mark
  · have plain := plain_of_mem_digits written
    exact plain.1 rfl

theorem newline_not_mem_short (n : Nat) : ¬ '\n' ∈ (short n).toList := by
  have kept : ¬ '\n' ∈ (digits 16 n).dropWhile (· == '0') := by
    intro member
    have plain := plain_of_mem_digits ((List.dropWhile_sublist _).subset member)
    exact plain.1 rfl
  unfold short
  cases written : (digits 16 n).dropWhile (· == '0') with
  | nil => decide
  | cons c ds =>
    rw [written] at kept
    simpa using kept

end Hex

theorem newline_not_mem_quoted (c : Char) : ¬ '\n' ∈ (quoted c).toList := by
  have plain : ¬ '\n' ∈ (escaped c).toList := by
    unfold escaped
    split_ifs with nul tab ret newline quote backslash control
    any_goals decide
    · simp [Hex.newline_not_mem_short]
    · simpa [eq_comm] using newline
  simp [quoted, plain]

end Text

namespace Report

open Command.Argument (after?)

def word? (text : String) : Option String := (Text.pieces text).head?.bind (after? "format:    ")

def ruleNames (text : String) : List String := (Text.pieces text).filterMap (after? "  ")

variable (f : Format)

theorem newline_not_mem_separatorLine : ¬ '\n' ∈ f.separatorLine.toList := by
  cases used : f.hasSeparator
  · simp [Format.separatorLine, used]
  · simp [Format.separatorLine, used, Text.newline_not_mem_quoted]

theorem newline_not_mem_ruleLines {line : String} (member : line ∈ f.ruleLines) :
    ¬ '\n' ∈ line.toList := by
  unfold Format.ruleLines at member
  cases active : f.activeRules with
  | nil =>
    simp only [active, List.mem_singleton] at member
    subst member
    decide
  | cons r rules =>
    simp only [active, List.mem_cons, List.mem_map] at member
    rcases member with title | ⟨q, _, indented⟩
    · subst title
      decide
    · subst indented
      simp [Rule.newline_not_mem_name]

theorem pieces_report :
    Text.pieces f.report =
      ("format:    " ++ f.text) :: f.separatorLine :: (f.ruleLines ++ [""]) := by
  apply Text.pieces_lines
  intro line member
  rcases List.mem_cons.mp member with first | member
  · subst first
    simp [Format.text, Text.Hex.newline_not_mem_word]
  · rcases List.mem_cons.mp member with second | rule
    · subst second
      exact newline_not_mem_separatorLine f
    · exact newline_not_mem_ruleLines f rule

theorem word?_report : word? f.report = some f.text := by
  rw [word?, pieces_report, List.head?_cons, Option.bind_some]
  exact Command.Argument.after?_append _ _

theorem ruleNames_report : ruleNames f.report = f.activeRules.map Rule.name := by
  have format : after? "  " ("format:    " ++ f.text) = none := by
    simp [after?, List.isPrefixOf?]
  have separator : after? "  " f.separatorLine = none := by
    simp [Format.separatorLine, after?, List.isPrefixOf?]
  rw [ruleNames, pieces_report, List.filterMap_cons_none format,
    List.filterMap_cons_none separator]
  unfold Format.ruleLines
  cases active : f.activeRules with
  | nil => simp [after?, List.isPrefixOf?]
  | cons r rules => simp [after?, List.isPrefixOf?, List.filterMap_map, Function.comp_def]

end Report

end LiteralGrammar
