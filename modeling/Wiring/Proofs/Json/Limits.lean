import Mathlib.Tactic.ByContra
import Wiring.Json.Parser

/-! # Reading within limits

Reading within limits goes on as reading without any does, until a limit is exceeded: an integer
has too many digits, or an array or object is nested too deep. There it breaks off and says so, of
which reading without limits never complains.
-/

namespace Wiring.Json

/-- Whether a complaint is about a limit, and not about the text. -/
def Complaint.isLimit : Complaint → Bool
  | tooManyDigits _ | tooDeep _ => true
  | _ => false

/-- Limits that a complaint tells to be exceeded. -/
def Limits.Exceeded (limits : Limits) : Complaint → Prop
  | .tooManyDigits count => ∃ most, limits.digits = some most ∧ most < count
  | .tooDeep _ => limits.depth.isSome
  | _ => False

section Outcomes

variable {α β : Type} {limits inside : Limits} {complaint : Complaint}

theorem Limits.Exceeded.isLimit (exceeded : limits.Exceeded complaint) :
    complaint.isLimit = true := by
  cases complaint <;> first | rfl | contradiction

/-- What is too much inside an array or object is too much for the whole. -/
theorem Limits.Exceeded.of_inner (entered : limits.inner? = some inside)
    (exceeded : inside.Exceeded complaint) : limits.Exceeded complaint := by
  have same : inside.digits = limits.digits ∧ inside.depth.isSome = limits.depth.isSome := by
    unfold inner? at entered
    split at entered <;> cases entered <;> simp_all
  cases complaint <;> simp_all [Exceeded]

/-- What reading gives within limits, and without any. -/
structure Within (limits : Limits) (limited free : Except Refusal α) : Prop where
  silent : ∀ complaint rest, free = refuse complaint rest → complaint.isLimit = false
  agree : limited = free ∨
    ∃ complaint rest, limits.Exceeded complaint ∧ limited = refuse complaint rest

theorem Within.ok (a : α) : Within limits (.ok a) (.ok a) where
  silent _ _ same := nomatch same
  agree := .inl rfl

theorem Within.refuse (rest : List Char) (other : complaint.isLimit = false) :
    Within limits (Json.refuse complaint rest : Except Refusal α)
      (Json.refuse complaint rest) := by
  refine ⟨fun _ _ same => ?_, .inl rfl⟩
  cases same
  exact other

theorem Within.of_inner {limited free : Except Refusal α} (entered : limits.inner? = some inside)
    (within : Within inside limited free) : Within limits limited free := by
  refine ⟨within.silent, within.agree.imp_right ?_⟩
  rintro ⟨complaint, rest, exceeded, cut⟩
  exact ⟨complaint, rest, exceeded.of_inner entered, cut⟩

/-- Limits have no more effect on two steps than on each of them. -/
theorem Within.bind {limited free : Except Refusal α} {next other : α → Except Refusal β}
    (first : Within limits limited free) (second : ∀ a, Within limits (next a) (other a)) :
    Within limits (limited >>= next) (free >>= other) := by
  constructor
  · intro complaint rest complains
    cases free with
    | error refusal =>
      cases complains
      exact first.silent complaint rest rfl
    | ok a => exact (second a).silent complaint rest complains
  · rcases first.agree with rfl | ⟨complaint, rest, exceeded, rfl⟩
    · cases limited with
      | error refusal => exact .inl rfl
      | ok a => exact (second a).agree
    · exact .inr ⟨complaint, rest, exceeded, rfl⟩

end Outcomes

section Readers

variable {limits : Limits}

/-- Without limits an array or object is entered, so that only what is in it can be too much. -/
theorem enter_within {α : Type} (container : String) (cs : List Char)
    {read : Limits → Except Refusal α} (each : ∀ inside, Within inside (read inside) (read .free)) :
    Within limits (enter limits container cs read) (enter .free container cs read) := by
  rw [enter_free, enter]
  cases entered : limits.inner? with
  | none =>
    refine ⟨(each .free).silent, .inr ⟨_, cs, ?_, rfl⟩⟩
    unfold Limits.inner? at entered
    split at entered <;> simp_all [Limits.Exceeded]
  | some inside => exact (each inside).of_inner entered

private theorem readUnits_within (opening : List Char) (units : List Nat) (cs : List Char) :
    Within limits (readUnits opening units cs) (readUnits opening units cs) := by
  fun_induction readUnits opening units cs with
  | case1 => exact .refuse _ rfl
  | case2 => exact .ok _
  | case3 units a b c d e rest unit found ih => exact ih
  | case4 => exact .refuse _ rfl
  | case5 => exact .refuse _ rfl
  | case6 => exact .refuse _ rfl
  | case7 units c rest _ _ plain found ih => exact ih
  | case8 => exact .refuse _ rfl
  | case9 => exact .refuse _ rfl
  | case10 units c rest _ _ _ _ _ printable ih => exact ih

private theorem readString_within (opening body : List Char) :
    Within limits (readString opening body) (readString opening body) :=
  (readUnits_within opening [] body).bind fun _ => .ok _

private theorem readScalar_within (cs : List Char) :
    Within limits (readScalar limits.digits cs) (readScalar none cs) := by
  unfold readScalar readLimited?
  cases readWord? cs with
  | some result => exact .ok result
  | none =>
    rcases readNumber? cs with _ | ⟨value, rest⟩
    · exact .refuse cs rfl
    · cases value with
      | int n =>
        cases given : limits.digits with
        | none => exact .ok _
        | some most =>
          by_cases long : most < wholeDigits cs
          · simp only [if_pos long]
            have exceeded : limits.Exceeded (.tooManyDigits (wholeDigits cs)) :=
              ⟨most, given, long⟩
            exact ⟨nofun, .inr ⟨_, cs, exceeded, rfl⟩⟩
          · simp only [if_neg long]
            exact .ok _
      | _ => exact .ok _

section Steps

variable {bound : Nat}

theorem readValue_within
    (items : ∀ limits before cs, Within limits (readItems limits bound before cs)
      (readItems .free bound before cs))
    (members : ∀ limits torn before cs, Within limits (readMembers limits bound torn before cs)
      (readMembers .free bound torn before cs))
    (cs : List Char) :
    Within limits (readValue limits (bound + 1) cs) (readValue .free (bound + 1) cs) := by
  unfold readValue
  split
  · exact (readString_within _ _).bind fun _ => .ok _
  · refine enter_within _ _ fun inside => ?_
    split
    · exact .ok _
    · exact items inside [] _
  · refine enter_within _ _ fun inside => ?_
    split
    · exact .ok _
    · exact members inside false [] _
  · exact readScalar_within _

private theorem readItems_within
    (value : ∀ limits cs, Within limits (readValue limits bound cs) (readValue .free bound cs))
    (items : ∀ limits before cs, Within limits (readItems limits bound before cs)
      (readItems .free bound before cs))
    (before : List Value) (cs : List Char) :
    Within limits (readItems limits (bound + 1) before cs)
      (readItems .free (bound + 1) before cs) := by
  unfold readItems
  refine (value limits cs).bind fun (read, rest) => ?_
  dsimp only
  split
  · exact .ok _
  · exact items _ _ _
  · exact .refuse _ rfl

private theorem readMembers_within
    (value : ∀ limits cs, Within limits (readValue limits bound cs) (readValue .free bound cs))
    (members : ∀ limits torn before cs, Within limits (readMembers limits bound torn before cs)
      (readMembers .free bound torn before cs))
    (torn : Bool) (before : List (String × Value)) (cs : List Char) :
    Within limits (readMembers limits (bound + 1) torn before cs)
      (readMembers .free (bound + 1) torn before cs) := by
  unfold readMembers
  split
  · refine (readString_within _ _).bind fun (key, rest) => ?_
    dsimp only
    split
    · refine (value limits _).bind fun (read, rest) => ?_
      dsimp only
      split
      · exact .ok _
      · exact members _ _ _ _
      · exact .refuse _ rfl
    · exact .refuse _ rfl
  · exact .refuse _ rfl

end Steps

/-- The three readers call each other, each with one call less to go. -/
theorem read_within (bound : Nat) :
    (∀ limits cs, Within limits (readValue limits bound cs) (readValue .free bound cs)) ∧
    (∀ limits before cs, Within limits (readItems limits bound before cs)
      (readItems .free bound before cs)) ∧
    ∀ limits torn before cs, Within limits (readMembers limits bound torn before cs)
      (readMembers .free bound torn before cs) := by
  induction bound with
  | zero =>
    refine ⟨fun _ cs => ?_, fun _ before cs => ?_, fun _ torn before cs => ?_⟩
    · exact .refuse cs rfl
    · exact .refuse cs rfl
    · exact .refuse cs rfl
  | succ bound ih =>
    obtain ⟨value, items, members⟩ := ih
    exact ⟨fun _ => readValue_within items members, fun _ => readItems_within value items,
      fun _ => readMembers_within value members⟩

theorem readText_within (limits : Limits) (cs : List Char) :
    Within limits (readText limits cs) (readText .free cs) := by
  unfold readText
  split
  · exact .refuse _ rfl
  · refine ((read_within _).1 limits _).bind fun (read, rest) => ?_
    dsimp only
    split
    · exact .ok _
    · exact .refuse _ rfl

end Readers

variable {limits : Limits} {text : String}

/-- Reading without limits does not complain of any. -/
theorem isLimit_parse {fault : SyntaxFault} (refused : parse text = .error fault) :
    fault.complaint.isLimit = false := by
  have silent := (readText_within .free text.toList).silent
  rw [parse, parseLimited] at refused
  generalize readText .free text.toList = outcome at refused silent
  cases outcome with
  | ok value => nomatch refused
  | error refusal =>
    cases refused
    exact silent refusal.complaint refusal.rest rfl

/-- Limits make a difference exactly where one is exceeded, and this is the complaint. -/
theorem parseLimited_ne_iff :
    parseLimited limits text ≠ parse text ↔
      ∃ fault, parseLimited limits text = .error fault ∧ limits.Exceeded fault.complaint := by
  constructor
  · intro differs
    rcases (readText_within limits text.toList).agree with same | ⟨complaint, rest, exceeded, cut⟩
    · rw [parse, parseLimited, parseLimited, same] at differs
      contradiction
    · rw [parseLimited, cut]
      exact ⟨_, rfl, exceeded⟩
  · rintro ⟨fault, cut, exceeded⟩ same
    rw [same] at cut
    exact absurd exceeded.isLimit (Bool.eq_false_iff.mp (isLimit_parse cut))

theorem parseLimited_ne_iff_isLimit {fault : SyntaxFault}
    (refused : parseLimited limits text = .error fault) :
    parseLimited limits text ≠ parse text ↔ fault.complaint.isLimit = true := by
  constructor
  · intro differs
    obtain ⟨other, cut, exceeded⟩ := parseLimited_ne_iff.mp differs
    obtain rfl := Except.error.inj (refused.symm.trans cut)
    exact exceeded.isLimit
  · intro isLimit same
    rw [isLimit_parse (same.symm.trans refused)] at isLimit
    nomatch isLimit

/-- What is read within limits is read without them. -/
theorem parseLimited_eq_parse {value : Value} (parsed : parseLimited limits text = .ok value) :
    parseLimited limits text = parse text := by
  by_contra differs
  obtain ⟨fault, cut, _⟩ := parseLimited_ne_iff.mp differs
  rw [parsed] at cut
  nomatch cut

end Wiring.Json
