/-
Maps ordered by a comparison of their keys.

A `std::map` keeps its entries in the order of a comparison and holds two keys for the same if neither is
before the other. `emplace` and `find` are its insertion and its search, on the entries in their order:
as long as the order is one, the place that the tree is descended to is where the list is cut. Nothing is
asked of the comparison but that it composes through a `proper` key, so it may be one of intervals, where
a key can conflict with several others and an empty one is before itself.

* `emplace_of_apart`, `emplace_of_conflict`: an insertion happens if no key conflicts, and else nothing;
* `mem_emplaceAll_iff`, `emplaceAll_of_apart`: a series of insertions, of any keys and of keys of which
  no two conflict;
* `mem_emplaceBatches_iff`: several series, of which no two have keys that conflict, leave what each of
  them leaves by itself;
* `conflict_of_find`, `find_of_mem`: a search finds an entry that conflicts with it.
-/

import Mathlib.Data.List.Induction
import Mathlib.Data.List.Infix
import Mathlib.Data.List.Pairwise
import Mathlib.Data.List.TakeWhile

set_option autoImplicit false

namespace KeyedMap

variable {K V : Type}

section Operations

variable (before : K → K → Prop) [DecidableRel before]

/-- `std::map::emplace`: at the first entry that the key is before, unless the entry that would precede
it is not before the key. -/
def emplace (key : K) (value : V) (map : List (K × V)) : List (K × V) :=
  let front := map.takeWhile fun entry => ¬ before key entry.1
  let back := map.dropWhile fun entry => ¬ before key entry.1
  if front.getLast?.all fun entry => before entry.1 key then front ++ (key, value) :: back else map

/-- `std::map::find`: the first entry that is not before the key, unless the key is before it. -/
def find (key : K) (map : List (K × V)) : Option V :=
  match map.dropWhile fun entry => before entry.1 key with
  | [] => none
  | entry :: _ => if before key entry.1 then none else some entry.2

end Operations

/-- Two keys that the map holds for the same. -/
def Conflict (before : K → K → Prop) (first second : K) : Prop :=
  ¬ before first second ∧ ¬ before second first

instance {before : K → K → Prop} [DecidableRel before] {first second : K} :
    Decidable (Conflict before first second) :=
  inferInstanceAs (Decidable (_ ∧ _))

/-- The comparison goes through every proper key. -/
def Composes (before : K → K → Prop) (proper : K → Prop) : Prop :=
  ∀ {first second third}, proper second → before first second → before second third →
    before first third

/-- The entries are in order, and their keys are proper. -/
structure Ordered (before : K → K → Prop) (proper : K → Prop) (map : List (K × V)) : Prop where
  sorted : map.Pairwise fun first second => before first.1 second.1
  proper : ∀ entry ∈ map, proper entry.1

theorem ordered_nil {before : K → K → Prop} {proper : K → Prop} :
    Ordered before proper ([] : List (K × V)) :=
  ⟨List.Pairwise.nil, by simp⟩

/-- What a map asks of its comparison, for the keys it holds: a strict weak ordering. -/
structure StrictWeak (before : K → K → Prop) (keys : List K) : Prop where
  irrefl : ∀ key ∈ keys, ¬ before key key
  trans : ∀ first ∈ keys, ∀ second ∈ keys, ∀ third ∈ keys,
    before first second → before second third → before first third
  incomparable : ∀ first ∈ keys, ∀ second ∈ keys, ∀ third ∈ keys,
    Conflict before first second → Conflict before second third → Conflict before first third

/-- Of the entries in order no two conflict. -/
theorem Ordered.eq_of_conflict {before : K → K → Prop} {proper : K → Prop} {map : List (K × V)}
    (ordered : Ordered before proper map) {first second : K} (left : first ∈ map.map Prod.fst)
    (right : second ∈ map.map Prod.fst) (conflict : Conflict before first second) : first = second := by
  have symmetric : Std.Symm fun a b => before a b ∨ before b a := ⟨fun _ _ => Or.symm⟩
  have apart : (map.map Prod.fst).Pairwise fun a b => before a b ∨ before b a :=
    ordered.sorted.map _ fun _ _ => Or.inl
  by_contra different
  exact (apart.forall left right different).elim conflict.1 conflict.2

/-- Entries in order, none of them before itself, are a strict weak ordering. -/
theorem Ordered.strictWeak {before : K → K → Prop} {proper : K → Prop} {map : List (K × V)}
    (through : Composes before proper) (ordered : Ordered before proper map)
    (irrefl : ∀ entry ∈ map, ¬ before entry.1 entry.1) : StrictWeak before (map.map Prod.fst) where
  irrefl key member := by
    obtain ⟨entry, there, rfl⟩ := List.mem_map.mp member
    exact irrefl entry there
  trans first _ second member third _ left right := by
    obtain ⟨entry, there, rfl⟩ := List.mem_map.mp member
    exact through (ordered.proper entry there) left right
  incomparable first left second middle third right conflict conflict' := by
    rw [ordered.eq_of_conflict left middle conflict]
    exact conflict'

/-- The last of the entries in order stands above the others. -/
theorem before_last {before : K → K → Prop} {front : List (K × V)} {last entry : K × V}
    (sorted : front.Pairwise fun first second => before first.1 second.1)
    (ends : front.getLast? = some last) (member : entry ∈ front) :
    entry = last ∨ before entry.1 last.1 := by
  obtain ⟨init, rfl⟩ := List.getLast?_eq_some_iff.mp ends
  rcases List.mem_append.mp member with early | now
  · exact Or.inr ((List.pairwise_append.mp sorted).2.2 entry early last (List.mem_singleton_self _))
  · exact Or.inl (List.mem_singleton.mp now)

section Search

variable {before : K → K → Prop} [DecidableRel before] {proper : K → Prop} {map : List (K × V)} {key : K} {value : V}

/-- A search finds an entry that conflicts with the key. -/
theorem conflict_of_find (found : find before key map = some value) :
    ∃ entry ∈ map, Conflict before entry.1 key ∧ entry.2 = value := by
  unfold find at found
  cases rest : map.dropWhile fun entry => before entry.1 key with
  | nil => simp [rest] at found
  | cons entry tail =>
      simp only [rest] at found
      split at found
      · cases found
      · rename_i after
        have member : entry ∈ map := (List.dropWhile_suffix _).subset (rest ▸ List.mem_cons_self ..)
        have first : ¬ before entry.1 key := by
          have head := List.head_dropWhile_not (fun entry => decide (before entry.1 key)) (l := map)
            (by simp [rest])
          simpa [rest] using head
        exact ⟨entry, member, ⟨first, after⟩, Option.some.inj found⟩

/-- A search finds an entry that conflicts with the key, if no two such entries are in order. -/
theorem find_of_mem
    (through : Composes before proper)
    (ordered : Ordered before proper map) {entry : K × V} (member : entry ∈ map)
    (conflict : Conflict before entry.1 key)
    (single : ∀ first second, Conflict before first key → Conflict before second key →
      ¬ before first second) : find before key map = some entry.2 := by
  induction map with
  | nil => cases member
  | cons head tail ih =>
      obtain ⟨above, sorted⟩ := List.pairwise_cons.mp ordered.sorted
      have rest : Ordered before proper tail :=
        ⟨sorted, fun entry here => ordered.proper entry (List.mem_cons_of_mem _ here)⟩
      rcases List.mem_cons.mp member with rfl | later
      · rw [find, List.dropWhile_cons_of_neg (by simpa using conflict.1)]
        exact if_neg conflict.2
      · by_cases low : before head.1 key
        · rw [find, List.dropWhile_cons_of_pos (by simpa using low)]
          exact ih rest later
        · -- The head is not before the key, so it stands between the key and the entry.
          have high : ¬ before key head.1 := fun ahead =>
            conflict.2 (through (ordered.proper head (List.mem_cons_self ..)) ahead (above entry later))
          exact absurd (above entry later) (single _ _ ⟨low, high⟩ conflict)

end Search

section Insertion

variable {before : K → K → Prop} [DecidableRel before] {proper : K → Prop} {map : List (K × V)} {key : K} {value : V}

/-- The entries from the first one on that the key is before. -/
theorem before_of_mem_back
    (through : Composes before proper)
    (ordered : Ordered before proper map) {entry : K × V}
    (member : entry ∈ map.dropWhile fun entry => ¬ before key entry.1) : before key entry.1 := by
  induction map with
  | nil => cases member
  | cons head tail ih =>
      obtain ⟨above, sorted⟩ := List.pairwise_cons.mp ordered.sorted
      by_cases here : before key head.1
      · rw [List.dropWhile_cons_of_neg (by simpa using here)] at member
        rcases List.mem_cons.mp member with rfl | later
        · exact here
        · exact through (ordered.proper head (List.mem_cons_self ..)) here (above entry later)
      · rw [List.dropWhile_cons_of_pos (by simpa using here)] at member
        exact ih ⟨sorted, fun entry here => ordered.proper entry (List.mem_cons_of_mem _ here)⟩ member

/-- A key that conflicts with no entry is inserted, also one that is not proper. -/
theorem emplace_inserts (apart : ∀ entry ∈ map, before entry.1 key ∨ before key entry.1) :
    (∀ entry ∈ map.takeWhile (fun entry => ¬ before key entry.1), before entry.1 key) ∧
      emplace before key value map =
        map.takeWhile (fun entry => ¬ before key entry.1) ++ (key, value) ::
          map.dropWhile (fun entry => ¬ before key entry.1) := by
  have below : ∀ entry ∈ map.takeWhile (fun entry => ¬ before key entry.1), before entry.1 key := by
    intro entry member
    have other : ¬ before key entry.1 := by simpa using List.mem_takeWhile_imp member
    exact (apart entry ((List.takeWhile_prefix _).subset member)).resolve_right other
  refine ⟨below, if_pos ?_⟩
  cases ends : (map.takeWhile fun entry => ¬ before key entry.1).getLast? with
  | none => rfl
  | some last => simpa using below last (List.mem_of_getLast? ends)

/-- A key that conflicts with no entry is inserted in its place. -/
theorem emplace_of_apart
    (through : Composes before proper)
    (ordered : Ordered before proper map) (good : proper key)
    (apart : ∀ entry ∈ map, before entry.1 key ∨ before key entry.1) :
    Ordered before proper (emplace before key value map) ∧
      ∀ entry, entry ∈ emplace before key value map ↔ entry = (key, value) ∨ entry ∈ map := by
  have split : map.takeWhile (fun entry => ¬ before key entry.1) ++
      map.dropWhile (fun entry => ¬ before key entry.1) = map := List.takeWhile_append_dropWhile
  obtain ⟨below, inserted⟩ := @emplace_inserts _ _ before _ map key value apart
  have above : ∀ entry ∈ map.dropWhile (fun entry => ¬ before key entry.1), before key entry.1 :=
    fun entry member => before_of_mem_back through ordered member
  have sorted := ordered.sorted
  rw [← split, List.pairwise_append] at sorted
  have members : ∀ entry, entry ∈ emplace before key value map ↔
      entry = (key, value) ∨ entry ∈ map := by
    intro entry
    rw [inserted, List.mem_append, List.mem_cons]
    conv_rhs => rw [← split, List.mem_append]
    exact or_left_comm
  refine ⟨⟨?_, fun entry member => ?_⟩, members⟩
  · rw [inserted, List.pairwise_append, List.pairwise_cons]
    refine ⟨sorted.1, ⟨above, sorted.2.1⟩, fun first early second late => ?_⟩
    rcases List.mem_cons.mp late with rfl | late
    · exact below first early
    · exact sorted.2.2 first early second late
  · rcases (members entry).mp member with rfl | old
    · exact good
    · exact ordered.proper entry old

/-- A key that conflicts with an entry is not inserted. -/
theorem emplace_of_conflict
    (through : Composes before proper)
    (ordered : Ordered before proper map) {entry : K × V} (member : entry ∈ map)
    (conflict : Conflict before entry.1 key) : emplace before key value map = map := by
  have split : map.takeWhile (fun entry => ¬ before key entry.1) ++
      map.dropWhile (fun entry => ¬ before key entry.1) = map := List.takeWhile_append_dropWhile
  have front : entry ∈ map.takeWhile fun entry => ¬ before key entry.1 := by
    rw [← split] at member
    refine (List.mem_append.mp member).resolve_right fun late => ?_
    exact conflict.2 (before_of_mem_back through ordered late)
  refine if_neg fun inserts => ?_
  cases ends : (map.takeWhile fun entry => ¬ before key entry.1).getLast? with
  | none =>
      rw [List.getLast?_eq_none_iff.mp ends] at front
      cases front
  | some last =>
      rw [ends] at inserts
      have low : before last.1 key := by simpa using inserts
      have sorted := ordered.sorted
      rw [← split, List.pairwise_append] at sorted
      rcases before_last sorted.1 ends front with rfl | ahead
      · exact conflict.1 low
      · have here : last ∈ map := (List.takeWhile_prefix _).subset (List.mem_of_getLast? ends)
        exact conflict.1 (through (ordered.proper last here) ahead low)

/-- What an insertion does: nothing but to insert a key that conflicts with no other. -/
theorem mem_emplace_iff (through : Composes before proper) (ordered : Ordered before proper map)
    (good : proper key) :
    Ordered before proper (emplace before key value map) ∧
      ∀ entry, entry ∈ emplace before key value map ↔
        entry ∈ map ∨ entry = (key, value) ∧ ∀ other ∈ map, ¬ Conflict before other.1 key := by
  by_cases free : ∀ other ∈ map, ¬ Conflict before other.1 key
  · have apart : ∀ other ∈ map, before other.1 key ∨ before key other.1 := by
      intro other member
      by_contra neither
      exact free other member (not_or.mp neither)
    obtain ⟨inserted, members⟩ : Ordered before proper (emplace before key value map) ∧
        ∀ entry, entry ∈ emplace before key value map ↔ entry = (key, value) ∨ entry ∈ map :=
      emplace_of_apart through ordered good apart
    refine ⟨inserted, fun entry => ?_⟩
    rw [members, and_iff_left free]
    exact or_comm
  · obtain ⟨other, member, conflict⟩ : ∃ other ∈ map, Conflict before other.1 key := by
      simpa using free
    rw [emplace_of_conflict through ordered member conflict]
    exact ⟨ordered, fun entry => ⟨Or.inl, fun either => either.resolve_right fun new => free new.2⟩⟩

/-- A series of insertions inserts each key that conflicts with none in the map at its turn. -/
theorem mem_emplaceAll_iff (through : Composes before proper) (ordered : Ordered before proper map)
    {entries : List (K × V)} (good : ∀ entry ∈ entries, proper entry.1) :
    Ordered before proper (entries.foldl (fun map entry => emplace before entry.1 entry.2 map) map) ∧
      ∀ entry, entry ∈ entries.foldl (fun map entry => emplace before entry.1 entry.2 map) map ↔
        entry ∈ map ∨ ∃ front back, entries = front ++ entry :: back ∧
          ∀ other ∈ front.foldl (fun map entry => emplace before entry.1 entry.2 map) map,
            ¬ Conflict before other.1 entry.1 := by
  induction entries generalizing map with
  | nil => exact ⟨ordered, fun entry => by simp⟩
  | cons head tail ih =>
      obtain ⟨first, rest⟩ := List.forall_mem_cons.mp good
      obtain ⟨inserted, members⟩ : Ordered before proper (emplace before head.1 head.2 map) ∧
          ∀ entry, entry ∈ emplace before head.1 head.2 map ↔
            entry ∈ map ∨ entry = head ∧ ∀ other ∈ map, ¬ Conflict before other.1 head.1 :=
        mem_emplace_iff through ordered first
      obtain ⟨final, all⟩ := ih inserted rest
      refine ⟨final, fun entry => ?_⟩
      rw [List.foldl_cons, all, members, or_assoc]
      refine or_congr_right ⟨?_, ?_⟩
      · rintro (⟨rfl, free⟩ | ⟨front, back, rfl, free⟩)
        · exact ⟨[], tail, rfl, free⟩
        · exact ⟨head :: front, back, rfl, free⟩
      · rintro ⟨front, back, split, free⟩
        rcases List.cons_eq_append_iff.mp split with ⟨rfl, same⟩ | ⟨front', rfl, rest'⟩
        · obtain ⟨rfl, rfl⟩ := List.cons.inj same
          exact Or.inl ⟨rfl, free⟩
        · exact Or.inr ⟨front', back, rest', free⟩

/-- Keys of which no two conflict are all inserted. -/
theorem emplaceAll_of_apart (through : Composes before proper) (ordered : Ordered before proper map)
    {entries : List (K × V)} (good : ∀ entry ∈ entries, proper entry.1)
    (apart : ∀ entry ∈ map, ∀ other ∈ entries, before entry.1 other.1 ∨ before other.1 entry.1)
    (own : entries.Pairwise fun first second => before first.1 second.1 ∨ before second.1 first.1) :
    Ordered before proper (entries.foldl (fun map entry => emplace before entry.1 entry.2 map) map) ∧
      ∀ entry, entry ∈ entries.foldl (fun map entry => emplace before entry.1 entry.2 map) map ↔
        entry ∈ entries ∨ entry ∈ map := by
  obtain ⟨final, members⟩ := mem_emplaceAll_iff through ordered good
  refine ⟨final, fun entry => (members entry).trans ⟨?_, ?_⟩⟩
  · rintro (old | ⟨front, back, rfl, -⟩)
    · exact Or.inr old
    · exact Or.inl (List.mem_append_right _ (List.mem_cons_self ..))
  · rintro (new | old)
    · obtain ⟨front, back, rfl⟩ := List.append_of_mem new
      refine Or.inr ⟨front, back, rfl, fun other member conflict => ?_⟩
      -- What is in the map by then was in it, or was inserted before.
      have earlier : ∀ entry ∈ front, proper entry.1 :=
        fun entry among => good entry (List.mem_append_left _ among)
      rcases ((mem_emplaceAll_iff through ordered earlier).2 other).mp member with old | ⟨_, _, rfl, -⟩
      · exact (apart other old entry new).elim conflict.1 conflict.2
      · have ahead := (List.pairwise_append.mp own).2.2 other
          (List.mem_append_right _ (List.mem_cons_self ..)) entry (List.mem_cons_self ..)
        exact ahead.elim conflict.1 conflict.2
    · exact Or.inl old

/-- A series of insertions that meets no conflict with the map adds what it leaves by itself. -/
theorem mem_emplaceAll_apart (through : Composes before proper) (ordered : Ordered before proper map)
    {entries : List (K × V)} (good : ∀ entry ∈ entries, proper entry.1)
    (apart : ∀ entry ∈ map, ∀ other ∈ entries, before entry.1 other.1 ∨ before other.1 entry.1) {entry : K × V} :
    entry ∈ entries.foldl (fun map entry => emplace before entry.1 entry.2 map) map ↔
      entry ∈ map ∨ entry ∈ entries.foldl (fun map entry => emplace before entry.1 entry.2 map) [] := by
  induction entries using List.reverseRecOn generalizing entry with
  | nil => simp
  | append_singleton front last ih =>
      obtain ⟨goodFront, goodLast⟩ := List.forall_mem_append.mp good
      have ih := fun entry => @ih goodFront
        (fun entry held other among => apart entry held other (List.mem_append_left _ among)) entry
      have ordered' := (mem_emplaceAll_iff through ordered goodFront).1
      have alone := (mem_emplaceAll_iff through (@ordered_nil K V before proper) goodFront).1
      have good' : proper last.1 := goodLast last (List.mem_singleton_self last)
      rw [List.foldl_append, List.foldl_append, List.foldl_cons, List.foldl_cons, List.foldl_nil, List.foldl_nil,
        (mem_emplace_iff through ordered' good').2, (mem_emplace_iff through alone good').2, ih, or_assoc]
      refine or_congr_right (or_congr_right (and_congr_right fun _ => ?_))
      constructor
      · exact fun free other held => free other ((ih other).mpr (Or.inr held))
      · intro free other held
        rcases (ih other).mp held with old | new
        · have away := apart other old last (List.mem_append_right _ (List.mem_singleton_self last))
          exact fun conflict => away.elim conflict.1 conflict.2
        · exact free other new

/-- What a series of insertions leaves by itself is of the series. -/
theorem mem_of_mem_emplaceAll (through : Composes before proper) {entries : List (K × V)}
    (good : ∀ entry ∈ entries, proper entry.1) {entry : K × V}
    (left : entry ∈ entries.foldl (fun map entry => emplace before entry.1 entry.2 map) []) : entry ∈ entries := by
  rcases ((mem_emplaceAll_iff through ordered_nil good).2 entry).mp left with absent | ⟨front, back, rfl, -⟩
  · cases absent
  · exact List.mem_append_right _ (List.mem_cons_self ..)

/-- **Several series of insertions**, of which no two have keys that conflict, leave what each leaves by itself. -/
theorem mem_emplaceBatches_iff (through : Composes before proper) {batches : List (List (K × V))}
    (good : ∀ batch ∈ batches, ∀ entry ∈ batch, proper entry.1)
    (apart : batches.Pairwise fun first second => ∀ entry ∈ first, ∀ other ∈ second,
      before entry.1 other.1 ∨ before other.1 entry.1) :
    Ordered before proper (batches.foldl
        (fun map batch => batch.foldl (fun map entry => emplace before entry.1 entry.2 map) map) []) ∧
      ∀ entry, entry ∈ batches.foldl
          (fun map batch => batch.foldl (fun map entry => emplace before entry.1 entry.2 map) map) [] ↔
        ∃ batch ∈ batches, entry ∈ batch.foldl (fun map entry => emplace before entry.1 entry.2 map) [] := by
  induction batches using List.reverseRecOn with
  | nil => exact ⟨ordered_nil, fun entry => by simp⟩
  | append_singleton front last ih =>
      obtain ⟨goodFront, goodLast⟩ := List.forall_mem_append.mp good
      obtain ⟨apartFront, -, away⟩ := List.pairwise_append.mp apart
      obtain ⟨ordered, members⟩ := ih goodFront apartFront
      have goodLast : ∀ entry ∈ last, proper entry.1 := goodLast last (List.mem_singleton_self last)
      have clear : ∀ entry ∈ front.foldl
          (fun map batch => batch.foldl (fun map entry => emplace before entry.1 entry.2 map) map) [],
          ∀ other ∈ last, before entry.1 other.1 ∨ before other.1 entry.1 := by
        intro entry held other among
        obtain ⟨batch, earlier, left⟩ := (members entry).mp held
        have own : entry ∈ batch := mem_of_mem_emplaceAll through (goodFront batch earlier) left
        exact away batch earlier last (List.mem_singleton_self last) entry own other among
      rw [List.foldl_append, List.foldl_cons, List.foldl_nil]
      refine ⟨(mem_emplaceAll_iff through ordered goodLast).1, fun entry => ?_⟩
      rw [mem_emplaceAll_apart through ordered goodLast clear, members]
      simp only [List.mem_append, List.mem_singleton, or_and_right, exists_or, exists_eq_left]

end Insertion

end KeyedMap
