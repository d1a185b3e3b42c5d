import Mathlib.Data.List.DropRight
import LiteralGrammar.Command.Request
import LiteralGrammar.Proofs.Command.Grammar
import LiteralGrammar.Proofs.LastEdit

namespace LiteralGrammar.Command

namespace Argument

def optionValue? {α : Type} (head : String) (value? : String → Option α) (s : String) : Option α :=
  (after? head s).bind value?

def separator? : String → Option Byte := optionValue? "--separator=" Byte.ofText?

def preset? : String → Option Preset := optionValue? "--preset=" Preset.ofName?

def exponent? : String → Option Byte := optionValue? "--exponent=" Byte.ofText?

def secondExponent? : String → Option (Option Byte) :=
  optionValue? "--exponent-backup=" fun text =>
    if text = "none" then some none else (Byte.ofText? text).map some

/-- The separator that an argument brings along: its own, or that of a preset with such rules. -/
def broughtSeparator? (s : String) : Option Byte :=
  match preset? s with
  | some p => if p.format.hasSeparator then some p.format.separator else none
  | none => separator? s

def switch? (r : Rule) (s : String) : Option Bool :=
  if Name.key s = Name.key r.name then some true
  else if (after? "!" s).map Name.key = some (Name.key r.name) then some false
  else none

def asPreset? : Argument → Option Preset
  | .preset p => some p
  | _ => none

def asSeparator? : Argument → Option Byte
  | .separator b => some b
  | .preset p => if p.format.hasSeparator then some p.format.separator else none
  | _ => none

def asExponent? : Argument → Option Byte
  | .exponent b => some b
  | _ => none

def asSecondExponent? : Argument → Option (Option Byte)
  | .secondExponent b => some b
  | _ => none

def asSwitch? (r : Rule) : Argument → Option Bool
  | .rule q on => if q = r then some on else none
  | _ => none

theorem key_ne_of_mark {s : String} (r : Rule)
    (mark : s.toList.head? = some '-' ∨ s.toList.head? = some '!') :
    Name.key s ≠ Name.key r.name := by
  intro spelled
  have absent := after?_of_spelled spelled mark
  have whole : after? s s = some "" := after?_eq_some_iff.mpr String.append_empty.symm
  rw [absent] at whole
  cases whole

theorem switch?_of_hyphen {s : String} (r : Rule) (mark : s.toList.head? = some '-') :
    switch? r s = none := by
  have unnegated : after? "!" s = none := by
    cases negated : after? "!" s with
    | none => rfl
    | some name =>
      rw [after?_eq_some_iff.mp negated, String.toList_append] at mark
      simp at mark
  simp [switch?, key_ne_of_mark r (Or.inl mark), unnegated]

section

variable {α : Type} {value? : String → Option α}

theorem optionValue?_append (head text : String) :
    optionValue? head value? (head ++ text) = value? text := by
  rw [optionValue?, after?_append, Option.bind_some]

theorem optionValue?_of_absent {head s : String} (absent : after? head s = none) :
    optionValue? head value? s = none := by
  rw [optionValue?, absent, Option.bind_none]

theorem optionValue?_of_spelled {name : String} {r : Rule}
    (spelled : Name.key name = Name.key r.name) {head : String}
    (mark : head.toList.head? = some '-') : optionValue? head value? name = none :=
  optionValue?_of_absent (after?_of_spelled spelled (Or.inl mark))

end

section

variable {s : String} {a : Argument} (denoted : Denotes s a)
include denoted

theorem preset?_of_denotes : preset? s = a.asPreset? := by
  cases denoted with
  | on spelled => exact optionValue?_of_spelled spelled (by simp)
  | preset known => exact (optionValue?_append _ _).trans known
  | _ => simp [preset?, optionValue?, after?, List.isPrefixOf?, asPreset?]

theorem exponent?_of_denotes : exponent? s = a.asExponent? := by
  cases denoted with
  | on spelled => exact optionValue?_of_spelled spelled (by simp)
  | exponent one => exact (optionValue?_append _ _).trans one
  | _ => simp [exponent?, optionValue?, after?, List.isPrefixOf?, asExponent?]

theorem secondExponent?_of_denotes : secondExponent? s = a.asSecondExponent? := by
  cases denoted with
  | on spelled => exact optionValue?_of_spelled spelled (by simp)
  | noSecondExponent => exact optionValue?_append _ _
  | @secondExponent text b one =>
    -- The word `none` is no byte, so the two forms of this option exclude each other.
    have single : text ≠ "none" := by
      intro same
      subst same
      simp [Byte.ofText?] at one
    rw [secondExponent?, optionValue?_append, if_neg single, one]
    rfl
  | _ => simp [secondExponent?, optionValue?, after?, List.isPrefixOf?, asSecondExponent?]

theorem broughtSeparator?_of_denotes : broughtSeparator? s = a.asSeparator? := by
  rw [broughtSeparator?, preset?_of_denotes denoted]
  cases denoted with
  | on spelled => exact optionValue?_of_spelled spelled (by simp)
  | separator one => exact (optionValue?_append _ _).trans one
  | preset known => rfl
  | _ => simp [separator?, optionValue?, after?, List.isPrefixOf?, asPreset?, asSeparator?]

theorem switch?_of_denotes (r : Rule) : switch? r s = a.asSwitch? r := by
  cases denoted with
  | on spelled =>
    have unnegated : after? "!" s = none := after?_of_spelled spelled (by simp)
    simp [switch?, spelled, unnegated, Rule.key_inj, asSwitch?]
  | @off name q spelled =>
    have marked : Name.key ("!" ++ name) ≠ Name.key r.name := key_ne_of_mark r (by simp)
    simp [switch?, marked, after?_append, spelled, Rule.key_inj, asSwitch?]
  | _ => exact switch?_of_hyphen r (by simp)

end

end Argument

namespace Request

open Argument

theorem ofArguments_concat {args : List String} {s : String} {q : Request} :
    ofArguments (args ++ [s]) = .ok q ↔
      ∃ p a, ofArguments args = .ok p ∧ Denotes s a ∧ p.obey a = q := by
  simp only [ofArguments, Except.map_eq_ok_iff, List.mapM_append, List.mapM_cons, List.mapM_nil]
  cases first : args.mapM read with
  | error e => simp [bind, Except.bind]
  | ok parsed =>
    cases last : read s with
    | error e =>
      have refused : ∀ a, ¬ Denotes s a := by
        intro a denoted
        rw [read_of_denotes denoted] at last
        cases last
      simp [bind, Except.bind, refused]
    | ok a =>
      have denoted : ∀ b, Denotes s b ↔ a = b := by
        intro b
        rw [← read_eq_ok_iff, last, Except.ok.injEq]
      simp [bind, Except.bind, pure, Except.pure, denoted]

theorem exists_ofArguments_iff {args : List String} :
    (∃ q, ofArguments args = .ok q) ↔ ∀ s ∈ args, ∃ a, Denotes s a := by
  induction args using List.reverseRecOn with
  | nil => exact ⟨fun _ => by simp, fun _ => ⟨_, rfl⟩⟩
  | append_singleton args s ih =>
    rw [List.forall_mem_append, List.forall_mem_singleton, ← ih]
    constructor
    · intro done
      obtain ⟨q, accepted⟩ := done
      obtain ⟨p, a, before, denoted, _⟩ := ofArguments_concat.mp accepted
      exact ⟨⟨p, before⟩, a, denoted⟩
    · intro readable
      obtain ⟨⟨p, before⟩, a, denoted⟩ := readable
      exact ⟨_, ofArguments_concat.mpr ⟨p, a, before, denoted, rfl⟩⟩

def sincePreset (args : List String) : List String :=
  args.rtakeWhile fun s => (preset? s).isNone

/-- What the arguments ask for, part by part. Only the arguments after the last preset can switch a
    rule; without one the preset decides, and without a preset the rule is off. -/
structure Meaning (args : List String) (q : Request) : Prop where
  rules : ∀ r, r ∈ q.draft.rules ↔
    (sincePreset args).findSomeRev? (switch? r) = some true ∨
      (sincePreset args).findSomeRev? (switch? r) = none ∧
        ∃ p, args.findSomeRev? preset? = some p ∧ p.format.isActive r = true
  separator : q.draft.separator = (args.findSomeRev? broughtSeparator?).getD (.ofChar '_')
  primary : q.markers.primary = (args.findSomeRev? exponent?).getD (.ofChar 'e')
  secondary : q.markers.secondary =
    (args.findSomeRev? secondExponent?).getD (some (.ofChar '^'))

theorem Meaning.nil : Meaning [] {} where
  rules r := by simp [sincePreset, RuleSet.mem_empty]
  separator := rfl
  primary := rfl
  secondary := rfl

theorem findSomeRev?_sincePreset_concat {α : Type} (f : String → Option α) (args : List String)
    (s : String) :
    (sincePreset (args ++ [s])).findSomeRev? f =
      if (preset? s).isNone then (f s).or ((sincePreset args).findSomeRev? f) else none := by
  rw [sincePreset, List.rtakeWhile_concat]
  split
  · exact List.findSomeRev?_concat f _ s
  · rfl

section

variable (p : Request) (a : Argument)

theorem primary_obey : (p.obey a).markers.primary = a.asExponent?.getD p.markers.primary := by
  cases a <;> rfl

theorem secondary_obey :
    (p.obey a).markers.secondary = a.asSecondExponent?.getD p.markers.secondary := by
  cases a <;> rfl

theorem separator_obey : (p.obey a).draft.separator = a.asSeparator?.getD p.draft.separator := by
  cases a with
  | preset chosen =>
    have own := chosen.format.separator_draft
    cases used : chosen.format.hasSeparator <;>
      simp_all [obey, startFrom, Draft.withSeparator, asSeparator?]
  | _ => rfl

theorem mem_obey (r : Rule) :
    r ∈ (p.obey a).draft.rules ↔
      match a.asPreset? with
      | some chosen => chosen.format.isActive r = true
      | none => a.asSwitch? r = some true ∨ a.asSwitch? r = none ∧ r ∈ p.draft.rules := by
  cases a with
  | preset chosen =>
    have replaced : (p.startFrom chosen).draft.rules = chosen.format.rules := by
      rw [← Format.rules_draft]
      cases used : chosen.format.hasSeparator <;> simp [startFrom, used, Draft.withSeparator]
    change r ∈ (p.startFrom chosen).draft.rules ↔ chosen.format.isActive r = true
    rw [replaced, Format.isActive_iff]
  | rule q on =>
    change r ∈ (p.draft.apply (.switch (.rule q) on)).rules ↔ _
    rw [Draft.mem_apply]
    by_cases same : q = r <;>
      simp [asPreset?, asSwitch?, Edit.switch?, Selector.covers, same]
  | _ => simp [obey, asPreset?, asSwitch?, Draft.withSeparator]

end

theorem Meaning.step {args : List String} {p : Request} {s : String} {a : Argument}
    (meant : Meaning args p) (denoted : Denotes s a) : Meaning (args ++ [s]) (p.obey a) where
  rules r := by
    rw [mem_obey, meant.rules r, findSomeRev?_sincePreset_concat, List.findSomeRev?_concat,
      preset?_of_denotes denoted, switch?_of_denotes denoted r]
    cases chosen : a.asPreset? with
    | some c => simp
    | none => cases a.asSwitch? r <;> simp
  separator := by
    rw [separator_obey, meant.separator, List.findSomeRev?_concat,
      broughtSeparator?_of_denotes denoted, Option.getD_or]
  primary := by
    rw [primary_obey, meant.primary, List.findSomeRev?_concat, exponent?_of_denotes denoted,
      Option.getD_or]
  secondary := by
    rw [secondary_obey, meant.secondary, List.findSomeRev?_concat,
      secondExponent?_of_denotes denoted, Option.getD_or]

theorem meaning_of_ofArguments {args : List String} {q : Request}
    (accepted : ofArguments args = .ok q) : Meaning args q := by
  induction args using List.reverseRecOn generalizing q with
  | nil =>
    cases accepted
    exact .nil
  | append_singleton args s ih =>
    obtain ⟨p, a, before, denoted, obeyed⟩ := ofArguments_concat.mp accepted
    have meant := (ih before).step denoted
    rw [obeyed] at meant
    exact meant

def setsPrimary (s : String) : Bool := (after? "--exponent=" s).isSome

def setsSecondary (s : String) : Bool := (after? "--exponent-backup=" s).isSome

def setsNeither (s : String) : Bool := !setsPrimary s && !setsSecondary s

/-- The second list has the arguments of the first. Those for each marker and those for the rest
    keep their order; the three kinds may stand in other places among each other. -/
structure Moved (args moved : List String) : Prop where
  primary : moved.filter setsPrimary = args.filter setsPrimary
  secondary : moved.filter setsSecondary = args.filter setsSecondary
  others : moved.filter setsNeither = args.filter setsNeither

example : Moved ["--exponent=p", "no-special", "--exponent-backup=none", "!no-special"]
    ["no-special", "--exponent-backup=none", "!no-special", "--exponent=p"] :=
  ⟨by decide +kernel, by decide +kernel, by decide +kernel⟩

theorem Moved.mem {args moved : List String} (same : Moved args moved) {s : String}
    (member : s ∈ moved) : s ∈ args := by
  have within {p : String → Bool} (kept : moved.filter p = args.filter p) (held : p s = true) :
      s ∈ args := by
    have chosen : s ∈ moved.filter p := List.mem_filter.mpr ⟨member, held⟩
    rw [kept] at chosen
    exact List.mem_of_mem_filter chosen
  by_cases primary : setsPrimary s = true
  · exact within same.primary primary
  · by_cases secondary : setsSecondary s = true
    · exact within same.secondary secondary
    · exact within same.others (by simp [setsNeither, primary, secondary])

theorem setsNeither_of_denotes {s : String} {a : Argument} (denoted : Denotes s a) :
    setsNeither s = (a.asExponent?.isNone && a.asSecondExponent?.isNone) := by
  cases denoted with
  | on spelled =>
    have primary : after? "--exponent=" s = none := after?_of_spelled spelled (by simp)
    have secondary : after? "--exponent-backup=" s = none := after?_of_spelled spelled (by simp)
    simp [setsNeither, setsPrimary, setsSecondary, primary, secondary, asExponent?,
      asSecondExponent?]
  | _ =>
    simp [setsNeither, setsPrimary, setsSecondary, after?, List.isPrefixOf?, asExponent?,
      asSecondExponent?]

theorem ofArguments_filter_setsNeither {args : List String} {q : Request}
    (accepted : ofArguments args = .ok q) :
    ofArguments (args.filter setsNeither) = .ok { draft := q.draft } := by
  induction args using List.reverseRecOn generalizing q with
  | nil =>
    cases accepted
    rfl
  | append_singleton args s ih =>
    obtain ⟨p, a, before, denoted, obeyed⟩ := ofArguments_concat.mp accepted
    have kept := setsNeither_of_denotes denoted
    subst obeyed
    cases neither : setsNeither s with
    | true =>
      rw [neither] at kept
      rw [List.filter_append, List.filter_cons_of_pos neither, List.filter_nil]
      refine ofArguments_concat.mpr ⟨_, a, ih before, denoted, ?_⟩
      cases a with
      | exponent b => cases kept
      | secondExponent b => cases kept
      | _ => rfl
    | false =>
      rw [neither] at kept
      rw [List.filter_append, List.filter_cons_of_neg (by simp [neither]), List.filter_nil,
        List.append_nil, ih before]
      cases a with
      | exponent b => rfl
      | secondExponent b => rfl
      | _ => cases kept

theorem exponent?_of_not_setsPrimary (s : String) (unset : setsPrimary s = false) :
    exponent? s = none := by
  rw [setsPrimary, Option.isSome_eq_false_iff, Option.isNone_iff_eq_none] at unset
  exact optionValue?_of_absent unset

theorem secondExponent?_of_not_setsSecondary (s : String) (unset : setsSecondary s = false) :
    secondExponent? s = none := by
  rw [setsSecondary, Option.isSome_eq_false_iff, Option.isNone_iff_eq_none] at unset
  exact optionValue?_of_absent unset

theorem ofArguments_of_moved {args moved : List String} {q : Request}
    (accepted : ofArguments args = .ok q) (same : Moved args moved) :
    ofArguments moved = .ok q := by
  have readable := exists_ofArguments_iff.mp ⟨q, accepted⟩
  obtain ⟨p, reread⟩ := exists_ofArguments_iff.mpr fun s member => readable s (same.mem member)
  have asked := meaning_of_ofArguments accepted
  have again := meaning_of_ofArguments reread
  -- Both lists leave the same arguments when those for markers are taken out.
  have draft : p.draft = q.draft := by
    have left := ofArguments_filter_setsNeither reread
    rw [same.others, ofArguments_filter_setsNeither accepted] at left
    have requests : ({ draft := q.draft } : Request) = { draft := p.draft } := Except.ok.inj left
    exact (congrArg Request.draft requests).symm
  have primary : p.markers.primary = q.markers.primary := by
    rw [again.primary, asked.primary,
      ← List.findSomeRev?_filter exponent?_of_not_setsPrimary moved, same.primary,
      List.findSomeRev?_filter exponent?_of_not_setsPrimary args]
  have secondary : p.markers.secondary = q.markers.secondary := by
    rw [again.secondary, asked.secondary,
      ← List.findSomeRev?_filter secondExponent?_of_not_setsSecondary moved, same.secondary,
      List.findSomeRev?_filter secondExponent?_of_not_setsSecondary args]
  have markers : p.markers = q.markers :=
    calc p.markers = ⟨p.markers.primary, p.markers.secondary⟩ := rfl
      _ = ⟨q.markers.primary, q.markers.secondary⟩ := by rw [primary, secondary]
      _ = q.markers := rfl
  calc ofArguments moved = .ok ⟨p.draft, p.markers⟩ := reread
    _ = .ok ⟨q.draft, q.markers⟩ := by rw [draft, markers]
    _ = .ok q := rfl

/-- The last writer of each part decides it, and where the arguments for markers stand among the
    others does not matter. -/
theorem ofArguments_last_writer {args : List String} {q : Request}
    (accepted : ofArguments args = .ok q) :
    Meaning args q ∧ ∀ moved, Moved args moved → ofArguments moved = .ok q :=
  ⟨meaning_of_ofArguments accepted, fun _ same => ofArguments_of_moved accepted same⟩

/-- The preset brings its apostrophe in place of the comma before it, and the comma after it stands
    again. -/
theorem ofArguments_last_writer_cxx17 :
    let args := ["--separator=,", "--exponent=p", "no-special", "--preset=cxx17-literal",
      "!Case_Sensitive_Special", "--exponent-backup=none"]
    let later := args ++ ["--separator=,"]
    let q (separator : Byte) : Request := ⟨⟨⟨0x11100000004⟩, separator⟩, ⟨.ofChar 'p', none⟩⟩
    (ofArguments args = .ok (q (.ofChar '\'')) ∧ Meaning args (q (.ofChar '\'')) ∧
      ∀ moved, Moved args moved → ofArguments moved = .ok (q (.ofChar '\''))) ∧
    ofArguments later = .ok (q (.ofChar ',')) ∧ Meaning later (q (.ofChar ',')) ∧
      ∀ moved, Moved later moved → ofArguments moved = .ok (q (.ofChar ',')) := by
  intro args later q
  have brought : ofArguments args = .ok (q (.ofChar '\'')) := by decide +kernel
  have replaced : ofArguments later = .ok (q (.ofChar ',')) := by decide +kernel
  exact ⟨⟨brought, ofArguments_last_writer brought⟩, replaced, ofArguments_last_writer replaced⟩

end Request

end LiteralGrammar.Command
