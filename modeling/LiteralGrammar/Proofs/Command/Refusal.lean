import LiteralGrammar.Command.Answer
import LiteralGrammar.Proofs.Command.LastWriter
import LiteralGrammar.Proofs.Lookup

namespace LiteralGrammar.Command

namespace Argument

def OneCharacter (text : String) : Prop := ∃ c : Char, c.toNat < 128 ∧ text = String.singleton c

inductive Refused : String → Error → Prop
  | separator {text : String} (other : ¬ OneCharacter text) :
      Refused ("--separator=" ++ text) (.notOneCharacter text)
  | preset {name : String} (unknown : ∀ p, ¬ Preset.Names (Name.key name) p) :
      Refused ("--preset=" ++ name) (.unknownPreset name)
  | exponent {text : String} (other : ¬ OneCharacter text) :
      Refused ("--exponent=" ++ text) (.notOneCharacter text)
  | secondExponent {text : String} (present : text ≠ "none") (other : ¬ OneCharacter text) :
      Refused ("--exponent-backup=" ++ text) (.notOneCharacter text)
  | option {rest : String} (unknown : ∀ head ∈ ["--separator=", "--preset=", "--exponent=",
        "--exponent-backup="], ∀ text, "--" ++ rest ≠ head ++ text) :
      Refused ("--" ++ rest) (.unknownOption ("--" ++ rest))
  | on {name : String} (hyphens : ∀ rest, name ≠ "--" ++ rest) (mark : ∀ rest, name ≠ "!" ++ rest)
      (unknown : ∀ r : Rule, Name.key name ≠ Name.key r.name) : Refused name (.unknownRule name)
  | off {name : String} (unknown : ∀ r : Rule, Name.key name ≠ Name.key r.name) :
      Refused ("!" ++ name) (.unknownRule name)

theorem ofText?_eq_none_iff {text : String} :
    Byte.ofText? text = none ↔ ¬ OneCharacter text := by
  have single (c : Char) : text = String.singleton c ↔ text.toList = [c] := by
    rw [← String.toList_inj, String.toList_singleton]
  simp only [OneCharacter, single, Byte.ofText?]
  split
  · next c whole => simp [whole]
  · next other =>
    have several : ∀ c, text.toList ≠ [c] := other
    simp [several]

theorem byte_eq_error_iff {text : String} {e : Error} :
    byte text = .error e ↔ ¬ OneCharacter text ∧ e = .notOneCharacter text := by
  rw [← ofText?_eq_none_iff, byte]
  cases Byte.ofText? text <;> simp [eq_comm]

theorem optionalByte_eq_error_iff {text : String} {e : Error} :
    optionalByte text = .error e ↔
      text ≠ "none" ∧ ¬ OneCharacter text ∧ e = .notOneCharacter text := by
  unfold optionalByte
  by_cases absent : text = "none"
  · simp [absent]
  · simp only [absent, if_false, Except.map_eq_error_iff, byte_eq_error_iff, ne_eq,
      not_false_eq_true, true_and]

theorem presetNamed_eq_error_iff {name : String} {e : Error} :
    presetNamed name = .error e ↔
      (∀ p, ¬ Preset.Names (Name.key name) p) ∧ e = .unknownPreset name := by
  rw [← Preset.ofName?_eq_none_iff, presetNamed]
  cases Preset.ofName? name <;> simp [eq_comm]

theorem ruleNamed_eq_error_iff {name : String} {e : Error} :
    ruleNamed name = .error e ↔
      (∀ r : Rule, Name.key name ≠ Name.key r.name) ∧ e = .unknownRule name := by
  have unknown : Rule.ofName? name = none ↔ ∀ r : Rule, Name.key name ≠ Name.key r.name := by
    simp only [Option.eq_none_iff_forall_ne_some, ne_eq, Rule.ofName?_eq_some_iff]
  rw [← unknown, ruleNamed]
  cases Rule.ofName? name <;> simp [eq_comm]

theorem options_absent_iff {s : String} :
    (∀ option ∈ options, after? option.1 s = none) ↔
      ∀ head ∈ ["--separator=", "--preset=", "--exponent=", "--exponent-backup="],
        ∀ text, s ≠ head ++ text := by
  simp only [options, List.forall_mem_cons, List.not_mem_nil, false_imp_iff, implies_true,
    after?_eq_none_iff]

theorem refused_of_read {s : String} {e : Error} (failed : read s = .error e) : Refused s e := by
  cases form s with
  | separator text =>
    rw [read_separator, Except.map_eq_error_iff, byte_eq_error_iff] at failed
    obtain ⟨other, rfl⟩ := failed
    exact .separator other
  | preset name =>
    rw [read_preset, Except.map_eq_error_iff, presetNamed_eq_error_iff] at failed
    obtain ⟨unknown, rfl⟩ := failed
    exact .preset unknown
  | exponent text =>
    rw [read_exponent, Except.map_eq_error_iff, byte_eq_error_iff] at failed
    obtain ⟨other, rfl⟩ := failed
    exact .exponent other
  | secondExponent text =>
    rw [read_secondExponent, Except.map_eq_error_iff, optionalByte_eq_error_iff] at failed
    obtain ⟨present, other, rfl⟩ := failed
    exact .secondExponent present other
  | other hyphens other =>
    rw [read_other hyphens other] at failed
    cases failed
    rw [options_absent_iff, after?_eq_some_iff.mp hyphens] at other
    rw [after?_eq_some_iff.mp hyphens]
    exact .option other
  | negated name =>
    rw [read_negated, Except.map_eq_error_iff, ruleNamed_eq_error_iff] at failed
    obtain ⟨unknown, rfl⟩ := failed
    exact .off unknown
  | plain hyphens mark =>
    rw [read_plain hyphens mark, Except.map_eq_error_iff, ruleNamed_eq_error_iff] at failed
    obtain ⟨unknown, rfl⟩ := failed
    exact .on (after?_eq_none_iff.mp hyphens) (after?_eq_none_iff.mp mark) unknown

theorem read_of_refused {s : String} {e : Error} (refused : Refused s e) : read s = .error e := by
  cases refused with
  | separator other =>
    rw [read_separator, Except.map_eq_error_iff]
    exact byte_eq_error_iff.mpr ⟨other, rfl⟩
  | preset unknown =>
    rw [read_preset, Except.map_eq_error_iff]
    exact presetNamed_eq_error_iff.mpr ⟨unknown, rfl⟩
  | exponent other =>
    rw [read_exponent, Except.map_eq_error_iff]
    exact byte_eq_error_iff.mpr ⟨other, rfl⟩
  | secondExponent present other =>
    rw [read_secondExponent, Except.map_eq_error_iff]
    exact optionalByte_eq_error_iff.mpr ⟨present, other, rfl⟩
  | option unknown => exact read_other (after?_append _ _) (options_absent_iff.mpr unknown)
  | on hyphens mark unknown =>
    rw [read_plain (after?_eq_none_iff.mpr hyphens) (after?_eq_none_iff.mpr mark),
      Except.map_eq_error_iff]
    exact ruleNamed_eq_error_iff.mpr ⟨unknown, rfl⟩
  | off unknown =>
    rw [read_negated, Except.map_eq_error_iff]
    exact ruleNamed_eq_error_iff.mpr ⟨unknown, rfl⟩

theorem read_eq_error_iff {s : String} {e : Error} : read s = .error e ↔ Refused s e :=
  ⟨refused_of_read, read_of_refused⟩

theorem Refused.ne_noFormat {s : String} {e : Error} (refused : Refused s e) (v : Violation) :
    e ≠ .noFormat v := by
  cases refused <;> exact Error.noConfusion

theorem Refused.unique {s : String} {e f : Error} (first : Refused s e) (second : Refused s f) :
    e = f :=
  Except.error.inj ((read_of_refused first).symm.trans (read_of_refused second))

theorem exists_denotes_iff {s : String} : (∃ a, Denotes s a) ↔ ∀ e, ¬ Refused s e := by
  simp only [← read_eq_ok_iff, ← read_eq_error_iff]
  cases read s <;> simp

def FirstRefused (args : List String) (e : Error) : Prop :=
  ∃ before s later, args = before ++ s :: later ∧ (∀ t ∈ before, ∀ other, ¬ Refused t other) ∧
    Refused s e

theorem not_firstRefused_nil {e : Error} : ¬ FirstRefused [] e := by
  intro first
  obtain ⟨before, s, later, split, _⟩ := first
  simp at split

section

variable {s : String} {args : List String} {e : Error}

theorem firstRefused_cons_of_refused (refused : Refused s e) {f : Error} :
    FirstRefused (s :: args) f ↔ e = f := by
  constructor
  · intro first
    obtain ⟨before, t, later, split, passed, culprit⟩ := first
    cases before with
    | nil =>
      cases split
      exact refused.unique culprit
    | cons head before =>
      cases split
      exact absurd refused (passed s List.mem_cons_self e)
  · intro same
    subst same
    exact ⟨[], s, args, rfl, by simp, refused⟩

theorem firstRefused_cons_of_good (good : ∀ other, ¬ Refused s other) :
    FirstRefused (s :: args) e ↔ FirstRefused args e := by
  constructor
  · intro first
    obtain ⟨before, t, later, split, passed, culprit⟩ := first
    cases before with
    | nil =>
      cases split
      exact absurd culprit (good e)
    | cons head before =>
      cases split
      have rest := (List.forall_mem_cons.mp passed).2
      exact ⟨before, t, later, rfl, rest, culprit⟩
  · intro first
    obtain ⟨before, t, later, rfl, passed, culprit⟩ := first
    exact ⟨s :: before, t, later, rfl, List.forall_mem_cons.mpr ⟨good, passed⟩, culprit⟩

end

end Argument

namespace Request

open Argument

def follow (q : Request) (s : String) : Except Error Request := (read s).map q.obey

theorem mapM_read_foldl (q : Request) (args : List String) :
    (args.mapM read).map (·.foldl obey q) = args.foldlM follow q := by
  induction args generalizing q with
  | nil => rfl
  | cons s args ih =>
    rw [List.mapM_cons, List.foldlM_cons, follow]
    cases read s with
    | error e => rfl
    | ok a =>
      change _ = args.foldlM follow (q.obey a)
      rw [← ih]
      cases args.mapM read <;> rfl

theorem ofArguments_eq_foldlM (args : List String) : ofArguments args = args.foldlM follow {} :=
  mapM_read_foldl {} args

theorem follow_eq_error_iff {q : Request} {s : String} {e : Error} :
    q.follow s = .error e ↔ Refused s e := by
  rw [follow, Except.map_eq_error_iff, read_eq_error_iff]

theorem foldlM_follow_eq_error_iff {q : Request} {args : List String} {e : Error} :
    args.foldlM follow q = .error e ↔ FirstRefused args e := by
  induction args generalizing q with
  | nil =>
    refine ⟨fun failed => ?_, fun first => absurd first not_firstRefused_nil⟩
    cases failed
  | cons s args ih =>
    rw [List.foldlM_cons]
    cases step : q.follow s with
    | error f =>
      change Except.error f = Except.error e ↔ _
      rw [firstRefused_cons_of_refused (follow_eq_error_iff.mp step), Except.error.injEq]
    | ok p =>
      have good : ∀ other, ¬ Refused s other := by
        intro other refused
        rw [follow_eq_error_iff.mpr refused] at step
        cases step
      rw [firstRefused_cons_of_good good]
      exact ih

theorem ofArguments_eq_error_iff {args : List String} {e : Error} :
    ofArguments args = .error e ↔ FirstRefused args e := by
  rw [ofArguments_eq_foldlM, foldlM_follow_eq_error_iff]

theorem exists_ofArguments_iff_good {args : List String} :
    (∃ q, ofArguments args = .ok q) ↔ ∀ s ∈ args, ∀ e, ¬ Refused s e := by
  rw [exists_ofArguments_iff]
  exact forall₂_congr fun s _ => exists_denotes_iff

end Request

open Argument (Refused FirstRefused)

theorem compile_of_firstRefused {args : List String} {e : Error} (first : FirstRefused args e) :
    compile args = .error e := by
  rw [compile, Request.ofArguments_eq_error_iff.mpr first]
  rfl

theorem compile_eq_noFormat_iff {args : List String} {v : Violation} :
    compile args = .error (.noFormat v) ↔
      ∃ q, Request.ofArguments args = .ok q ∧ q.draft.compile q.markers = .error v := by
  unfold compile
  cases asked : Request.ofArguments args with
  | error e =>
    obtain ⟨_, s, _, _, _, refused⟩ := Request.ofArguments_eq_error_iff.mp asked
    simp [Except.bind, refused.ne_noFormat]
  | ok q =>
    simp only [Except.bind, Except.map_eq_error_iff, Request.compile, Except.ok.injEq,
      exists_eq_left']
    cases q.draft.compile q.markers <;> simp [Except.mapError]

/-- The arguments make a request exactly if none of them is bad. Otherwise the command is refused
    for the first bad one, whatever follows it. A grammar is refused only after all its arguments
    were found good, and for what is wrong with the draft that they make. -/
theorem ofArguments_first_refused (args : List String) :
    ((∃ q, Request.ofArguments args = .ok q) ↔ ∀ s ∈ args, ∀ e, ¬ Refused s e) ∧
    (∀ e, Request.ofArguments args = .error e ↔ FirstRefused args e) ∧
    (∀ e, FirstRefused args e → compile args = .error e) ∧
    ∀ v, compile args = .error (.noFormat v) ↔ (∀ s ∈ args, ∀ e, ¬ Refused s e) ∧
      ∃ q, Request.ofArguments args = .ok q ∧ q.draft.compile q.markers = .error v := by
  refine ⟨Request.exists_ofArguments_iff_good, fun e => Request.ofArguments_eq_error_iff,
    fun e => compile_of_firstRefused, fun v => ?_⟩
  rw [compile_eq_noFormat_iff, ← Request.exists_ofArguments_iff_good]
  refine ⟨fun refused => ⟨?_, refused⟩, And.right⟩
  obtain ⟨q, asked, _⟩ := refused
  exact ⟨q, asked⟩

example : compile ["no-special", "!--special", "--separator=ab", "--preset=klingon"] =
    .error (.unknownRule "--special") := by
  decide +kernel

end LiteralGrammar.Command
