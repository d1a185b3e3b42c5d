import LiteralGrammar.Proofs.Command.Check
import LiteralGrammar.Proofs.Command.LastWriter
import LiteralGrammar.Proofs.Image
import LiteralGrammar.Proofs.Printed
import LiteralGrammar.Proofs.Recompile

namespace LiteralGrammar.Command

theorem begins_usual_iff {b : Byte} :
    Markers.usual.begins b = true ↔ b = .ofChar 'e' ∨ b = .ofChar '^' := by
  rw [Markers.begins_iff]
  simp [Markers.usual, eq_comm]

theorem compile_eq_ok_iff {args : List String} {text : String} :
    compile args = .ok text ↔
      ∃ q f, Request.ofArguments args = .ok q ∧ q.compile = .ok f ∧ f.report = text := by
  unfold compile
  cases Request.ofArguments args with
  | error e => simp [Except.bind]
  | ok q => simp [Except.bind, Except.map_eq_ok_iff]

theorem request_compile_eq_ok_iff {q : Request} {f : Format} :
    q.compile = .ok f ↔ q.draft.violation? (some q.markers) = none ∧ f = .pack q.draft := by
  rw [← Draft.compile_eq_ok_iff, Request.compile]
  cases q.draft.compile q.markers with
  | ok g =>
    change (.ok g : Except Error Format) = .ok f ↔ _
    rw [Except.ok.injEq, Except.ok.injEq]
  | error v =>
    change (.error (.noFormat v) : Except Error Format) = .ok f ↔ _
    simp only [reduceCtorEq]

theorem check_text (f : Format) : check f.text = answer f.word :=
  check_of_read (Text.Hex.read?_word f.word)

section

variable {d : Draft} {m : Markers} (judged : d.violation? (some m) = none)
include judged

theorem check_pack_of_free (free : Markers.usual.begins (Format.pack d).separator = false) :
    check (Format.pack d).text = .ok (Format.pack d).report := by
  rw [Format.separator_pack (Draft.reserved_of_accepted judged)] at free
  rw [check_text, answer,
    Format.ofWord_some_pack_of_free (Draft.accepted_without_markers judged) free]

theorem check_pack_of_taken (taken : Markers.usual.begins (Format.pack d).separator = true) :
    check (Format.pack d).text =
      .error (.noFormat (.unusableSeparator (Format.pack d).separator)) := by
  have owned := Draft.reserved_of_accepted judged
  rw [Format.separator_pack owned] at taken ⊢
  rw [check_text, answer, Format.ofWord_some_pack_of_taken owned taken]

end

theorem markers_of_unset {args : List String} {q : Request}
    (accepted : Request.ofArguments args = .ok q)
    (unset : ∀ s ∈ args, Argument.after? "--exponent=" s = none ∧
      Argument.after? "--exponent-backup=" s = none) :
    q.markers = .usual := by
  have meant := Request.meaning_of_ofArguments accepted
  have primary : args.findSomeRev? Argument.exponent? = none :=
    List.findSomeRev?_eq_none fun s member =>
      Argument.optionValue?_of_absent (unset s member).1
  have secondary : args.findSomeRev? Argument.secondExponent? = none :=
    List.findSomeRev?_eq_none fun s member =>
      Argument.optionValue?_of_absent (unset s member).2
  calc q.markers = ⟨q.markers.primary, q.markers.secondary⟩ := rfl
    _ = .usual := by rw [meant.primary, meant.secondary, primary, secondary]; rfl

/-- The printed word prints the same report again, unless the separator is a usual marker: then it
    is refused. Without arguments for markers it always prints the report. -/
theorem check_of_compile {args : List String} {text : String} (compiled : compile args = .ok text) :
    ∃ q f word, Request.ofArguments args = .ok q ∧ q.compile = .ok f ∧
      Report.word? text = some word ∧
      (f.separator ≠ .ofChar 'e' ∧ f.separator ≠ .ofChar '^' → check word = .ok text) ∧
      (f.separator = .ofChar 'e' ∨ f.separator = .ofChar '^' →
        check word = .error (.noFormat (.unusableSeparator f.separator))) ∧
      ((∀ s ∈ args, Argument.after? "--exponent=" s = none ∧
        Argument.after? "--exponent-backup=" s = none) → check word = .ok text) := by
  obtain ⟨q, f, accepted, formed, reported⟩ := compile_eq_ok_iff.mp compiled
  obtain ⟨judged, packed⟩ := request_compile_eq_ok_iff.mp formed
  subst reported packed
  refine ⟨q, _, _, accepted, formed, Report.word?_report _, ?_, ?_, ?_⟩
  · intro other
    apply check_pack_of_free judged
    rw [← Bool.not_eq_true, begins_usual_iff, not_or]
    exact other
  · intro taken
    exact check_pack_of_taken judged (begins_usual_iff.mpr taken)
  · intro unset
    rw [markers_of_unset accepted unset] at judged
    apply check_pack_of_free judged
    rw [Format.separator_pack (Draft.reserved_of_accepted judged)]
    exact Format.begins_spelled judged (Or.inr (by decide))

/-- A caret separates where nothing begins an exponent with it, and the check refuses it. -/
theorem check_of_compile_caret :
    let text := "format:    0x5e00000100000000\nseparator: '^'\nrules:\n" ++
      "  integer-internal-digit-separator\n"
    compile ["--separator=^", "--exponent-backup=none", "integer-internal-digit-separator"] =
      .ok text ∧
    check "0x5e00000100000000" = .error (.noFormat (.unusableSeparator (.ofChar '^'))) := by
  intro text
  have compiled : compile ["--separator=^", "--exponent-backup=none",
      "integer-internal-digit-separator"] = .ok text := by decide +kernel
  obtain ⟨q, f, word, accepted, formed, printed, _, taken, _⟩ := check_of_compile compiled
  have request : Request.ofArguments ["--separator=^", "--exponent-backup=none",
      "integer-internal-digit-separator"] =
        .ok ⟨⟨⟨0x100000000⟩, .ofChar '^'⟩, ⟨.ofChar 'e', none⟩⟩ := by decide +kernel
  cases request.symm.trans accepted
  have format : Request.compile ⟨⟨⟨0x100000000⟩, .ofChar '^'⟩, ⟨.ofChar 'e', none⟩⟩ =
      .ok ⟨0x5e00000100000000⟩ := by decide
  cases format.symm.trans formed
  have shown : Report.word? text = some "0x5e00000100000000" := by decide +kernel
  cases shown.symm.trans printed
  exact ⟨compiled, taken (Or.inr (by decide))⟩

theorem ofArguments_append_spellings {args spellings : List String} {q : Request}
    (accepted : Request.ofArguments args = .ok q)
    (named : ∀ s ∈ spellings, ∃ r : Rule, Name.key s = Name.key r.name) :
    ∃ rules : List Rule, (∀ r, r ∈ rules ↔ ∃ s ∈ spellings, Name.key s = Name.key r.name) ∧
      Request.ofArguments (args ++ spellings) =
        .ok { q with draft := q.draft.run (rules.map fun r : Rule => .switch r true) } := by
  induction spellings using List.reverseRecOn with
  | nil =>
    refine ⟨[], by simp, ?_⟩
    rw [List.append_nil]
    exact accepted
  | append_singleton spellings s ih =>
    obtain ⟨rules, members, before⟩ := ih fun t member => named t (List.mem_append_left _ member)
    obtain ⟨r, spelled⟩ := named s (by simp)
    refine ⟨rules ++ [r], fun p => ?_, ?_⟩
    · have last : Name.key s = Name.key p.name ↔ p = r := by
        rw [spelled, Rule.key_inj, eq_comm]
      simp only [List.mem_append, List.mem_singleton, members, or_and_right, exists_or,
        exists_eq_left, last]
    · rw [← List.append_assoc]
      refine Request.ofArguments_concat.mpr ⟨_, .rule r true, before, .on spelled, ?_⟩
      rw [List.map_append, Draft.run_append]
      rfl

def optionsFor (f : Format) (marker : Char) : List String :=
  ["--exponent=" ++ String.singleton marker, "--exponent-backup=none"] ++
    if f.hasSeparator then ["--separator=" ++ String.singleton f.separator.toChar] else []

theorem ofText?_singleton {c : Char} (ascii : c.toNat < 128) :
    Byte.ofText? (String.singleton c) = some (.ofChar c) := by
  simp [Byte.ofText?, ascii]

theorem ofArguments_optionsFor {f : Format} {marker : Char} (ascii : marker.toNat < 128)
    (plain : f.draft.separator.Usable none) :
    Request.ofArguments (optionsFor f marker) =
      .ok ⟨({} : Draft).withSeparator f.draft.separator, ⟨.ofChar marker, none⟩⟩ := by
  have first : Request.ofArguments ([] ++ ["--exponent=" ++ String.singleton marker]) =
      .ok { markers := ⟨.ofChar marker, some (.ofChar '^')⟩ } :=
    Request.ofArguments_concat.mpr ⟨{}, _, rfl, .exponent (ofText?_singleton ascii), rfl⟩
  have second : Request.ofArguments
      (["--exponent=" ++ String.singleton marker] ++ ["--exponent-backup=" ++ "none"]) =
        .ok { markers := ⟨.ofChar marker, none⟩ } :=
    Request.ofArguments_concat.mpr ⟨_, _, first, .noSecondExponent, rfl⟩
  have separator := f.separator_draft
  unfold optionsFor
  cases used : f.hasSeparator with
  | false =>
    simp only [used, Bool.false_eq_true, if_false] at separator
    rw [separator]
    exact second
  | true =>
    simp only [used, if_true] at separator
    rw [separator] at plain ⊢
    have small : f.separator.toChar.toNat < 128 := by
      rw [Byte.toNat_toChar]
      exact (Byte.isPlain_iff.mp (Byte.usable_none.mp plain)).1
    have one := ofText?_singleton small
    rw [Byte.ofChar_toChar] at one
    exact Request.ofArguments_concat.mpr ⟨_, _, second, .separator one, rfl⟩

theorem mem_ruleNames_iff {f : Format} {n : String} :
    n ∈ Report.ruleNames f.report ↔ ∃ r : Rule, r ∈ f.rules ∧ r.name = n := by
  rw [Report.ruleNames_report, List.mem_map]
  exact exists_congr fun r => and_congr_left fun _ => Format.mem_activeRules

section

variable {f : Format} {spellings : List String}
  (listed : ∀ s ∈ spellings, ∃ n ∈ Report.ruleNames f.report, Name.key s = Name.key n)
include listed

theorem spelled_rule {s : String} (member : s ∈ spellings) :
    ∃ r : Rule, r ∈ f.rules ∧ Name.key s = Name.key r.name := by
  obtain ⟨n, known, spelled⟩ := listed s member
  obtain ⟨r, held, name⟩ := mem_ruleNames_iff.mp known
  exact ⟨r, held, by rw [spelled, name]⟩

theorem exists_spelling_iff
    (complete : ∀ n ∈ Report.ruleNames f.report, ∃ s ∈ spellings, Name.key s = Name.key n)
    (r : Rule) : (∃ s ∈ spellings, Name.key s = Name.key r.name) ↔ r ∈ f.rules := by
  constructor
  · intro spelled
    obtain ⟨s, member, same⟩ := spelled
    obtain ⟨q, held, known⟩ := spelled_rule listed member
    have equal : q = r := Rule.key_inj.mp (known.symm.trans same)
    rw [← equal]
    exact held
  · intro held
    exact complete r.name (mem_ruleNames_iff.mpr ⟨r, held, rfl⟩)

end

/-- Whatever the spelling and the order of the listed rules, they print the report again. The marker
    may be any ASCII character but the separator, or `_` if there is none. -/
theorem compile_respelled {w : Word} {f : Format} (accepted : Format.ofWord none w = .ok f)
    {spellings : List String}
    (listed : ∀ s ∈ spellings, ∃ n ∈ Report.ruleNames f.report, Name.key s = Name.key n)
    (complete : ∀ n ∈ Report.ruleNames f.report, ∃ s ∈ spellings, Name.key s = Name.key n)
    {marker : Char} (ascii : marker.toNat < 128)
    (free : Byte.ofChar marker ≠ if f.hasSeparator then f.separator else .ofChar '_') :
    compile (optionsFor f marker ++ spellings) = .ok f.report := by
  obtain ⟨d, judged, packed⟩ := Format.exists_draft_of_ofWord accepted
  have plain : f.draft.separator.Usable none := by
    rw [packed]
    exact Format.usable_draft_pack judged
  have named : ∀ s ∈ spellings, ∃ r : Rule, Name.key s = Name.key r.name := by
    intro s member
    obtain ⟨r, _, known⟩ := spelled_rule listed member
    exact ⟨r, known⟩
  obtain ⟨rules, members, asked⟩ :=
    ofArguments_append_spellings (ofArguments_optionsFor ascii plain) named
  have active : ∀ r, r ∈ rules ↔ r ∈ f.draft.rules := by
    intro r
    rw [members, f.rules_draft]
    exact exists_spelling_iff listed complete r
  have owned : f.draft.rules.reserved = 0 := by
    rw [f.rules_draft]
    exact RuleSet.reserved_inter RuleSet.reserved_known
  have built := Draft.run_switches owned active
  -- Without separator rules the draft holds `_`, which is judged although nothing uses it.
  have usable : f.draft.separator.Usable (some ⟨.ofChar marker, none⟩) := by
    refine Byte.usable_some.mpr ⟨Byte.usable_none.mp plain, ?_⟩
    rw [← f.separator_draft] at free
    simp [Markers.begins, free.symm]
  have compiled : f.draft.compile ⟨.ofChar marker, none⟩ = .ok f := by
    rw [packed] at usable ⊢
    exact Format.compile_draft_pack judged usable
  refine compile_eq_ok_iff.mpr ⟨_, f, asked, ?_, rfl⟩
  simp only [Request.compile, built, compiled]
  rfl

theorem compile_respelled_tab :
    Format.ofWord none 0x0900000100000200 = .ok ⟨0x0900000100000200⟩ ∧
    compile (["--exponent=e", "--exponent-backup=none", "--separator=\t"] ++
      ["INTEGER-Internal_digit-separator", "No_Special", "no-special"]) =
        .ok (⟨0x0900000100000200⟩ : Format).report := by
  have accepted : Format.ofWord none 0x0900000100000200 = .ok ⟨0x0900000100000200⟩ := by decide
  have options : optionsFor ⟨0x0900000100000200⟩ 'e' =
      ["--exponent=e", "--exponent-backup=none", "--separator=\t"] := by decide +kernel
  have names : Report.ruleNames (⟨0x0900000100000200⟩ : Format).report =
      ["no-special", "integer-internal-digit-separator"] := by decide +kernel
  refine ⟨accepted, ?_⟩
  rw [← options]
  apply compile_respelled accepted
  · rw [names]
    decide +kernel
  · rw [names]
    decide +kernel
  · decide
  · decide

end LiteralGrammar.Command
