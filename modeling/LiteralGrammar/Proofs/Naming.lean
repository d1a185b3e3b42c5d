import LiteralGrammar.Rule

namespace LiteralGrammar

namespace Rule

theorem ofName?_name (r : Rule) : ofName? r.name = some r :=
  (by decide +kernel : ∀ q ∈ all, ofName? q.name = some q) r r.mem_all

theorem head_key (r : Rule) {c : Char} (head : (Name.key r.name).head? = some c) :
    c ≠ '-' ∧ c ≠ '!' := by
  have letters : ∀ q ∈ all, (Name.key q.name).head? ≠ some '-' ∧
      (Name.key q.name).head? ≠ some '!' := by decide +kernel
  obtain ⟨hyphen, mark⟩ := letters r r.mem_all
  constructor
  · intro same
    subst same
    exact hyphen head
  · intro same
    subst same
    exact mark head

theorem newline_not_mem_name (r : Rule) : ¬ '\n' ∈ r.name.toList :=
  (by decide +kernel : ∀ q ∈ all, ¬ '\n' ∈ q.name.toList) r r.mem_all

theorem ofName?_of_key {s t : String} (same : Name.key s = Name.key t) : ofName? s = ofName? t := by
  have matched (r : Rule) : Name.same r.name s = Name.same r.name t := by
    rw [Bool.eq_iff_iff, Name.same_iff, Name.same_iff, same]
  simp only [ofName?, matched]

theorem ofName?_eq_some_iff {s : String} {r : Rule} :
    ofName? s = some r ↔ Name.key s = Name.key r.name := by
  constructor
  · intro found
    unfold ofName? at found
    have matched := List.find?_some found
    exact ((Name.same_iff _ _).mp matched).symm
  · intro spelled
    rw [ofName?_of_key spelled, ofName?_name]

theorem key_inj {a b : Rule} : Name.key a.name = Name.key b.name ↔ a = b := by
  constructor
  · intro same
    have found := ofName?_eq_some_iff.mpr same
    rw [ofName?_name] at found
    exact Option.some.inj found
  · intro same
    rw [same]

end Rule

end LiteralGrammar
