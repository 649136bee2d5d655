import Mathlib.Data.List.Shortlex
import Wiring.Proofs.Superclasses

/-!
# Breadth-first order

A route picks, from one type to the next, one of the supertypes by its position.  The hierarchy of a
type lists the registered types in the order of their least routes, shorter ones first and routes of
one length in lexicographic order, also where supertypes run in a circle.
-/

namespace Wiring
namespace TypeSystem

variable {system : TypeSystem} {name : TypeName} {type : DeclaredType} {route : List Nat}

/-- Registered type to which the supertypes at the given positions lead. -/
def typeAt? (system : TypeSystem) (name : TypeName) : List Nat → Option DeclaredType
  | [] => system.get? name
  | position :: route =>
      (system.get? name).bind fun type =>
        type.supertypes[position]?.bind fun next => system.typeAt? next route

/-- Registered type to which a route from a queue of names leads, the first position being the one
in the queue. -/
def queuedAt? (system : TypeSystem) (queue : List TypeName) : List Nat → Option DeclaredType
  | [] => none
  | position :: route => queue[position]?.bind fun name => system.typeAt? name route

/-- Whether a route is the first of all that lead to a type with some property. -/
structure IsFirst (typeAt? : List Nat → Option DeclaredType) (condition : DeclaredType → Prop)
    (route : List Nat) (type : DeclaredType) : Prop where
  /-- The route leads to the type. -/
  leads : typeAt? route = some type
  /-- The type has the property. -/
  holds : condition type
  /-- No other route to a type with the property comes earlier. -/
  least : ∀ other otherType, typeAt? other = some otherType → condition otherType →
    ¬ List.Shortlex (· < ·) other route

/-- At most one type is the first. -/
theorem IsFirst.eq {typeAt? : List Nat → Option DeclaredType} {condition : DeclaredType → Prop}
    {other : List Nat} {otherType : DeclaredType} (first : IsFirst typeAt? condition route type)
    (otherFirst : IsFirst typeAt? condition other otherType) : type = otherType := by
  have same : route = other :=
    Std.Trichotomous.trichotomous (r := List.Shortlex (· < ·)) route other
      (otherFirst.least route type first.leads first.holds)
      (first.least other otherType otherFirst.leads otherFirst.holds)
  exact Option.some.inj (first.leads.symm.trans (same ▸ otherFirst.leads))

@[simp]
theorem typeAt?_nil : system.typeAt? name [] = system.get? name := rfl

theorem typeAt?_cons_of_found (found : system.get? name = some type) (position : Nat) :
    system.typeAt? name (position :: route) =
      type.supertypes[position]?.bind fun next => system.typeAt? next route := by
  rw [typeAt?, found, Option.bind_some]

theorem typeAt?_of_absent (absent : system.get? name = none) :
    system.typeAt? name route = none := by
  cases route <;> simp [typeAt?, absent]

theorem typeAt?_cons_eq_some_iff {position : Nat} :
    system.typeAt? name (position :: route) = some type ↔
      ∃ first next, system.get? name = some first ∧ first.supertypes[position]? = some next ∧
        system.typeAt? next route = some type := by
  simp only [typeAt?, Option.bind_eq_some_iff, exists_and_left]

/-- Routes that avoid a type stay when it is forgotten. -/
theorem typeAt?_of_erase {gone : TypeName}
    (leads : (system.erase gone).typeAt? name route = some type) :
    system.typeAt? name route = some type := by
  induction route generalizing name with
  | nil => exact (get?_of_get?_erase leads).1
  | cons position route ih =>
      obtain ⟨first, next, found, picked, leads⟩ := typeAt?_cons_eq_some_iff.mp leads
      exact typeAt?_cons_eq_some_iff.mpr
        ⟨first, next, (get?_of_get?_erase found).1, picked, ih leads⟩

/-- A route to another type avoids a given one, or some end of it leads on from the supertypes of
the given one and avoids it. -/
theorem typeAt?_erase_or {gone : TypeName} {goneType : DeclaredType}
    (known : system.get? gone = some goneType) (leads : system.typeAt? name route = some type)
    (other : type ≠ goneType) :
    (system.erase gone).typeAt? name route = some type ∨
      ∃ before position rest next, route = before ++ position :: rest ∧
        goneType.supertypes[position]? = some next ∧
        (system.erase gone).typeAt? next rest = some type := by
  induction route generalizing name with
  | nil =>
      refine .inl ?_
      rw [typeAt?_nil, get?_erase, if_neg, ← typeAt?_nil, leads]
      rintro rfl
      exact other (Option.some.inj (leads.symm.trans known))
  | cons position route ih =>
      obtain ⟨first, next, found, picked, leads⟩ := typeAt?_cons_eq_some_iff.mp leads
      rcases ih leads with avoids | ⟨before, later, rest, upper, rfl, above, avoids⟩
      · by_cases same : name = gone
        · rw [same, known] at found
          cases found
          exact .inr ⟨[], position, route, next, rfl, picked, avoids⟩
        · refine .inl (typeAt?_cons_eq_some_iff.mpr ⟨first, next, ?_, picked, avoids⟩)
          rw [get?_erase, if_neg same, found]
      · exact .inr ⟨position :: before, later, rest, upper, rfl, above, avoids⟩

/-! ### One step of the walk -/

/-- Route from a queue without its first name, `count` names and then the supertypes of the first,
as a route from the queue. -/
def requeue (count : Nat) : List Nat → List Nat
  | [] => []
  | position :: route =>
      if position < count then (position + 1) :: route else 0 :: (position - count) :: route

theorem requeue_kept {count position : Nat} (kept : position < count) (route : List Nat) :
    requeue count (position :: route) = (position + 1) :: route := by
  rw [requeue, if_pos kept]

theorem requeue_added (count position : Nat) (route : List Nat) :
    requeue count ((count + position) :: route) = 0 :: position :: route := by
  rw [requeue, if_neg (by omega), Nat.add_sub_cancel_left]

theorem shortlex_cons_cons {i j : Nat} {left right : List Nat} :
    List.Shortlex (· < ·) (i :: left) (j :: right) ↔ left.length < right.length ∨
      left.length = right.length ∧ (i < j ∨ i = j ∧ List.Lex (· < ·) left right) := by
  rw [List.shortlex_def, List.cons_lex_cons_iff]
  simp only [List.length_cons, Nat.add_lt_add_iff_right, Nat.add_right_cancel_iff]

theorem shortlex_trans {first second third : List Nat}
    (before : List.Shortlex (· < ·) first second) (before' : List.Shortlex (· < ·) second third) :
    List.Shortlex (· < ·) first third := by
  rw [List.shortlex_def] at *
  rcases before with shorter | ⟨same, less⟩ <;> rcases before' with shorter' | ⟨same', less'⟩
  · exact .inl (shorter.trans shorter')
  · exact .inl (shorter.trans_eq same')
  · exact .inl (same.trans_lt shorter')
  · exact .inr ⟨same.trans same', List.lt_trans less less'⟩

/-- The step keeps the order of routes. -/
theorem shortlex_of_requeue {count i j : Nat} {left right : List Nat}
    (before : List.Shortlex (· < ·) (requeue count (i :: left)) (requeue count (j :: right))) :
    List.Shortlex (· < ·) (i :: left) (j :: right) := by
  simp only [requeue] at before
  split at before <;> split at before <;>
    simp only [shortlex_cons_cons, List.length_cons, List.cons_lex_cons_iff] at before ⊢ <;> grind

theorem queuedAt?_cons_cons {name : TypeName} {rest : List TypeName} {position : Nat} :
    system.queuedAt? (name :: rest) ((position + 1) :: route) =
      system.queuedAt? rest (position :: route) := rfl

theorem queuedAt?_head {rest : List TypeName} :
    system.queuedAt? (name :: rest) (0 :: route) = system.typeAt? name route := rfl

theorem queuedAt?_append_left {front back : List TypeName} {position : Nat}
    (here : position < front.length) :
    system.queuedAt? (front ++ back) (position :: route) =
      system.queuedAt? front (position :: route) := by
  simp only [queuedAt?, List.getElem?_append_left here]

theorem queuedAt?_append_right (front back : List TypeName) (position : Nat) :
    system.queuedAt? (front ++ back) ((front.length + position) :: route) =
      system.queuedAt? back (position :: route) := by
  simp [queuedAt?, List.getElem?_append_right]

theorem queuedAt?_of_erase {queue : List TypeName} {gone : TypeName}
    (leads : (system.erase gone).queuedAt? queue route = some type) :
    system.queuedAt? queue route = some type := by
  cases route with
  | nil => cases leads
  | cons position route =>
      obtain ⟨start, picked, leads⟩ := Option.bind_eq_some_iff.mp leads
      exact Option.bind_eq_some_iff.mpr ⟨start, picked, typeAt?_of_erase leads⟩

/-- A route of the next step leads to the same type as the one it stands for. -/
theorem queuedAt?_requeue {rest : List TypeName} {first : DeclaredType}
    (found : system.get? name = some first)
    (leads : (system.erase name).queuedAt? (rest ++ first.supertypes) route = some type) :
    system.queuedAt? (name :: rest) (requeue rest.length route) = some type := by
  cases route with
  | nil => cases leads
  | cons position route =>
      rcases Nat.lt_or_ge position rest.length with kept | added
      · rw [queuedAt?_append_left kept] at leads
        rw [requeue_kept kept, queuedAt?_cons_cons]
        exact queuedAt?_of_erase leads
      · obtain ⟨offset, rfl⟩ := Nat.exists_eq_add_of_le added
        rw [queuedAt?_append_right] at leads
        rw [requeue_added, queuedAt?_head, typeAt?_cons_of_found found]
        exact queuedAt?_of_erase leads

/-- A route from the queue to another type than the first one is one of the next step or comes after
one. -/
theorem exists_requeue {rest : List TypeName} {first : DeclaredType}
    (found : system.get? name = some first)
    (leads : system.queuedAt? (name :: rest) route = some type) (other : type ≠ first) :
    ∃ next, (system.erase name).queuedAt? (rest ++ first.supertypes) next = some type ∧
      (requeue rest.length next = route ∨
        List.Shortlex (· < ·) (requeue rest.length next) route) := by
  -- an end that leads on from the supertypes of the first type is a route of the next step
  have leads_on {position : Nat} {after : List Nat} {next : TypeName}
      (above : first.supertypes[position]? = some next)
      (avoids : (system.erase name).typeAt? next after = some type) :
      (system.erase name).queuedAt? (rest ++ first.supertypes)
        ((rest.length + position) :: after) = some type := by
    rw [queuedAt?_append_right, queuedAt?, above, Option.bind_some, avoids]
  match route with
  | [] => cases leads
  | 0 :: [] =>
      rw [queuedAt?_head, typeAt?_nil, found] at leads
      exact absurd (Option.some.inj leads).symm other
  | 0 :: position :: route =>
      rw [queuedAt?_head, typeAt?_cons_of_found found] at leads
      obtain ⟨next, above, leads⟩ := Option.bind_eq_some_iff.mp leads
      rcases typeAt?_erase_or found leads other with
        avoids | ⟨before, later, after, upper, rfl, above', avoids⟩
      · exact ⟨_, leads_on above avoids, .inl (requeue_added ..)⟩
      · refine ⟨_, leads_on above' avoids, .inr ?_⟩
        rw [requeue_added]
        refine .of_length_lt ?_
        simp only [List.length_cons, List.length_append]
        omega
  | (position + 1) :: route =>
      rw [queuedAt?_cons_cons] at leads
      obtain ⟨start, picked, leads⟩ := Option.bind_eq_some_iff.mp leads
      rcases typeAt?_erase_or found leads other with
        avoids | ⟨before, later, after, upper, rfl, above, avoids⟩
      · have kept : position < rest.length := (List.getElem?_eq_some_iff.mp picked).1
        refine ⟨position :: route, ?_, .inl (requeue_kept kept route)⟩
        rw [queuedAt?_append_left kept, queuedAt?, picked, Option.bind_some, avoids]
      · refine ⟨_, leads_on above avoids, .inr ?_⟩
        rw [requeue_added, shortlex_cons_cons]
        cases before with
        | nil => exact .inr ⟨rfl, .inl (Nat.succ_pos position)⟩
        | cons =>
            refine .inl ?_
            simp only [List.length_cons, List.length_append]
            omega

/-! ### The whole walk -/

/-- Induction along the walk: on an empty queue, past a name without declaration, and past a
registered one. -/
theorem reachable_induction {motive : TypeSystem → List TypeName → Prop}
    (nil : ∀ system, motive system [])
    (absent : ∀ system name rest, system.get? name = none → motive system rest →
      motive system (name :: rest))
    (found : ∀ system name rest type, system.get? name = some type →
      motive (system.erase name) (rest ++ type.supertypes) → motive system (name :: rest))
    (system : TypeSystem) (queue : List TypeName) : motive system queue :=
  match queue with
  | [] => nil system
  | name :: rest =>
      match stored : system.get? name with
      | none => absent system name rest stored
          (reachable_induction nil absent found system rest)
      | some type => found system name rest type stored
          (reachable_induction nil absent found (system.erase name) (rest ++ type.supertypes))
termination_by (system.size, queue.length)
decreasing_by
  · exact .right _ (Nat.lt_succ_self _)
  · exact .left _ _ (size_erase_lt stored)

/-- What `find?` picks from the walk is what the least route leads to. -/
theorem exists_isFirst_of_find? {queue : List TypeName} {condition : DeclaredType → Bool}
    (found : (system.reachable queue).find? condition = some type) :
    ∃ route, IsFirst (system.queuedAt? queue) (condition ·) route type := by
  induction system, queue using reachable_induction with
  | nil system => simp [reachable_nil] at found
  | absent system name rest absent ih =>
      rw [reachable_cons_of_absent absent] at found
      obtain ⟨route, first⟩ := ih found
      match route with
      | [] => cases first.leads
      | position :: route =>
          refine ⟨(position + 1) :: route, first.leads, first.holds,
            fun other otherType leads => ?_⟩
          match other with
          | [] => cases leads
          | 0 :: other =>
              rw [queuedAt?_head, typeAt?_of_absent absent] at leads
              cases leads
          | (later + 1) :: other =>
              intro holds earlier
              refine first.least (later :: other) otherType leads holds ?_
              simpa [shortlex_cons_cons] using earlier
  | found system name rest first stored ih =>
      rw [reachable_cons_of_found stored, List.find?_cons] at found
      split at found
      next holds =>
        cases found
        refine ⟨[0], stored, holds, fun other otherType leads _ earlier => ?_⟩
        match other with
        | [] => cases leads
        | position :: other => simp [shortlex_cons_cons] at earlier
      next fails =>
        obtain ⟨route, leads, holds, least⟩ := ih found
        refine ⟨_, queuedAt?_requeue stored leads, holds,
          fun other otherType reached otherHolds earlier => ?_⟩
        have differs : otherType ≠ first := by
          rintro rfl
          exact absurd otherHolds (by simp [fails])
        obtain ⟨next, next_leads, order⟩ := exists_requeue stored reached differs
        -- the route of the next step for the other type would come before the least one
        have next_earlier : List.Shortlex (· < ·) (requeue rest.length next)
            (requeue rest.length route) := by
          rcases order with rfl | later
          · exact earlier
          · exact shortlex_trans later earlier
        match route, next with
        | [], _ => cases leads
        | _, [] => cases next_leads
        | position :: route, later :: next =>
            exact least _ _ next_leads otherHolds (shortlex_of_requeue next_earlier)

/-- Nothing is left out of the walk. -/
theorem mem_reachable_of_queuedAt? {queue : List TypeName}
    (leads : system.queuedAt? queue route = some type) : type ∈ system.reachable queue := by
  induction system, queue using reachable_induction generalizing route with
  | nil system => cases route <;> cases leads
  | absent system name rest absent ih =>
      rw [reachable_cons_of_absent absent]
      match route with
      | [] => cases leads
      | 0 :: route =>
          rw [queuedAt?_head, typeAt?_of_absent absent] at leads
          cases leads
      | (position + 1) :: route =>
          rw [queuedAt?_cons_cons] at leads
          exact ih leads
  | found system name rest first stored ih =>
      rw [reachable_cons_of_found stored, List.mem_cons]
      by_cases same : type = first
      · exact .inl same
      · obtain ⟨next, next_leads, -⟩ := exists_requeue stored leads same
        exact .inr (ih next_leads)

theorem queuedAt?_singleton_eq_some_iff :
    system.queuedAt? [name] route = some type ↔
      ∃ rest, route = 0 :: rest ∧ system.typeAt? name rest = some type := by
  match route with
  | [] => simp [queuedAt?]
  | 0 :: rest => simp [queuedAt?_head]
  | (position + 1) :: rest => simp [queuedAt?]

/-- From the hierarchy of a type, `find?` picks what the least route leads to. -/
theorem exists_isFirst_of_find?_hierarchy {condition : DeclaredType → Bool}
    (found : (system.hierarchy name).find? condition = some type) :
    ∃ route, IsFirst (system.typeAt? name) (condition ·) route type := by
  obtain ⟨address, leads, holds, least⟩ := exists_isFirst_of_find? found
  obtain ⟨route, rfl, leads⟩ := queuedAt?_singleton_eq_some_iff.mp leads
  refine ⟨route, leads, holds, fun other otherType reached otherHolds earlier => ?_⟩
  exact least (0 :: other) otherType reached otherHolds (List.shortlex_cons_iff.mpr earlier)

theorem mem_hierarchy_of_typeAt? (leads : system.typeAt? name route = some type) :
    type ∈ system.hierarchy name :=
  mem_reachable_of_queuedAt? (queuedAt?_singleton_eq_some_iff.mpr ⟨route, rfl, leads⟩)

/-- The first type of the hierarchy with some property is the one at the end of the least route to
such a type. -/
theorem find?_hierarchy_eq_some_iff {condition : DeclaredType → Bool} :
    (system.hierarchy name).find? condition = some type ↔
      ∃ route, IsFirst (system.typeAt? name) (condition ·) route type := by
  refine ⟨exists_isFirst_of_find?_hierarchy, fun ⟨route, first⟩ => ?_⟩
  cases found : (system.hierarchy name).find? condition with
  | none =>
      exact absurd first.holds
        (List.find?_eq_none.mp found type (mem_hierarchy_of_typeAt? first.leads))
  | some other =>
      obtain ⟨otherRoute, otherFirst⟩ := exists_isFirst_of_find?_hierarchy found
      rw [first.eq otherFirst]

end TypeSystem
end Wiring
