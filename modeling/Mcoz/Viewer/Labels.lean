/-
The shortened paths of the legend.

The viewer shows the last parts of each path, as many as tell the files apart. It looks for that number from 1 on and
stops at the number of parts of the shortest path (`getMinimumParts_fewest`). What it takes for the line number is the
first colon with its digits, also in a directory. Both are harmless exactly if some number of parts that every file has
tells the files apart, and fewer tell the stripped texts apart as they tell the files: `labels_tell_iff`.
-/

import Mcoz.Lib.Separated
import Mathlib.Algebra.Order.Ring.Int
import Mathlib.Data.List.Basic
import Mathlib.Data.List.Nodup
import Mathlib.Data.List.TakeWhile
import Mathlib.Data.Nat.Digits.Lemmas

set_option autoImplicit false

namespace Mcoz.Viewer

/-! ### The functions of the page -/

/-- `path.replace(/:[0-9]*/, '')`: the first colon goes, with the digits after it. -/
def withoutLine : List Char → List Char
  | [] => []
  | ch :: rest => if ch = ':' then rest.dropWhile Char.isDigit else ch :: withoutLine rest

/-- `array.slice`, where a negative index counts from the end. -/
def slice {α : Type} (array : List α) (start finish : ℤ) : List α :=
  let place (index : ℤ) : ℕ := (if index < 0 then max (array.length + index) 0 else min index array.length).toNat
  (array.take (place finish)).drop (place start)

/-- `parts.slice(parts.length - count, parts.length).join('/')` of the parts of a path. -/
def lastParts (count : ℕ) (path : List Char) : List Char :=
  ['/'].intercalate
    (slice (path.splitOn '/') ((path.splitOn '/').length - count) (path.splitOn '/').length)

/-- `get_last_path_parts`. -/
def getLastPathParts (count : ℕ) (path : List Char) : List Char :=
  if '/' ∉ path then path else lastParts count path

/-- The loop of `has_duplicates`, with the values that it has seen. -/
def hasDuplicatesFrom (seen : List (List Char)) : List (List Char) → Bool
  | [] => false
  | value :: rest => if value ∈ seen then true else hasDuplicatesFrom (seen ++ [value]) rest

/-- `has_duplicates`. -/
def hasDuplicates (array : List (List Char)) : Bool :=
  hasDuplicatesFrom [] array

/-- `remove_duplicates`: the keys of an object are in the order in which they came. -/
def removeDuplicates (array : List (List Char)) : List (List Char) :=
  array.foldl (fun uniq value => if value ∈ uniq then uniq else uniq ++ [value]) []

/-- `Math.min`, where nothing stands for `Infinity`. -/
def least (shortest : Option ℕ) (length : ℕ) : Option ℕ :=
  some (min (shortest.getD length) length)

/-- The loop of `get_minimum_parts_for_unique_path`, for at most so many turns. -/
def minimumLoop (paths : List (List Char)) : ℕ → ℕ → Option ℕ → Option ℕ
  | 0, _, _ => none
  | turns + 1, minimum, shortestParts =>
      let shortestParts := (paths.map fun path => (path.splitOn '/').length).foldl least shortestParts
      if !hasDuplicates (paths.map (lastParts minimum)) then some minimum
      else if shortestParts.any (· ≤ minimum) then shortestParts
      else minimumLoop paths turns (minimum + 1) shortestParts

/-- `get_minimum_parts_for_unique_path`. -/
def getMinimumParts (turns : ℕ) (paths : List (List Char)) : Option ℕ :=
  if paths.length ≤ 1 then some 1
  else
    let paths := removeDuplicates (paths.map withoutLine)
    if paths.all (some · = paths.head?) then some 1 else minimumLoop paths turns 1 none

/-! ### What the number is for -/

/-- So many trailing parts tell the paths apart. -/
def Tells (count : ℕ) (paths : List (List Char)) : Prop :=
  ∀ first ∈ paths, ∀ second ∈ paths, first ≠ second → getLastPathParts count first ≠ getLastPathParts count second

/--
The least positive number of parts that tells the paths apart, where all of them have so many; else the number of
parts of the shortest.
-/
structure Fewest (paths : List (List Char)) (count : ℕ) : Prop where
  positive : 1 ≤ count
  below : ∀ smaller, 1 ≤ smaller → smaller < count → ¬ Tells smaller paths
  available : ∀ path ∈ paths, count ≤ (path.splitOn '/').length
  stops : Tells count paths ∨ ∃ path ∈ paths, (path.splitOn '/').length = count

section Parts

variable {paths others : List (List Char)} {path : List Char} {count number : ℕ}

/-- A path without slashes is its own last part. -/
theorem lastParts_eq (positive : 1 ≤ count) : lastParts count path = getLastPathParts count path := by
  unfold getLastPathParts
  by_cases slash : '/' ∈ path
  · rw [if_neg (not_not.mpr slash)]
  · rw [if_pos slash, lastParts]
    have whole : path.splitOn '/' = [path] := by
      simpa using @Separated.splitOn_flatMap _ _ '/' path [] slash (by simp)
    have start : (if (1 : ℤ) - count < 0 then max (1 + (1 - (count : ℤ))) 0 else min (1 - (count : ℤ)) 1) = 0 := by
      split <;> omega
    rw [whole, slice]
    simp only [List.length_singleton, Nat.cast_one, start]
    simp

/-- Only which paths there are matters. -/
theorem Tells.congr (same : ∀ path, path ∈ paths ↔ path ∈ others) : Tells count paths ↔ Tells count others := by
  unfold Tells
  simp only [same]

theorem Fewest.congr (same : ∀ path, path ∈ paths ↔ path ∈ others) (fewest : Fewest paths count) :
    Fewest others count where
  positive := fewest.positive
  below smaller positive less tells := fewest.below smaller positive less ((Tells.congr same).mpr tells)
  available path among := fewest.available path ((same path).mpr among)
  stops := by
    rcases fewest.stops with tells | ⟨path, among, length⟩
    · exact Or.inl ((Tells.congr same).mp tells)
    · exact Or.inr ⟨path, (same path).mp among, length⟩

/-- One part is enough for a single path. -/
theorem Fewest.single (same : ∀ first ∈ paths, ∀ second ∈ paths, first = second) : Fewest paths 1 where
  positive := le_rfl
  below _ positive less := absurd less (not_lt.mpr positive)
  available path _ := List.length_pos_of_ne_nil (List.splitOn_ne_nil _ path)
  stops := Or.inl fun first here second there other => absurd (same first here second there) other

/-- There is one such number. -/
theorem Fewest.unique (first : Fewest paths count) (second : Fewest paths number) : count = number := by
  have noLess {count number : ℕ} (first : Fewest paths count) (second : Fewest paths number) : number ≤ count := by
    by_contra less
    rcases first.stops with tells | ⟨path, among, length⟩
    · exact second.below count first.positive (not_le.mp less) tells
    · exact less (length ▸ second.available path among)
  exact le_antisymm (noLess second first) (noLess first second)

/-- Only slashes make parts. -/
theorem length_splitOn : (path.splitOn '/').length = path.count '/' + 1 := by
  induction path with
  | nil => rfl
  | cons ch rest ih =>
      by_cases slash : ch = '/'
      · rw [slash, Separated.splitOn_cons_self, List.length_cons, ih, List.count_cons_self]
      · rw [Separated.splitOn_cons_other slash, List.length_modifyHead, ih, List.count_cons_of_ne slash]

/-- The label of a path with so many parts is put together from the last of them. -/
theorem lastParts_drop (available : count ≤ (path.splitOn '/').length) :
    lastParts count path = ['/'].intercalate ((path.splitOn '/').drop ((path.splitOn '/').length - count)) := by
  have start : (if ((path.splitOn '/').length : ℤ) - count < 0 then
      max ((path.splitOn '/').length + (((path.splitOn '/').length : ℤ) - count)) 0
      else min (((path.splitOn '/').length : ℤ) - count) (path.splitOn '/').length).toNat =
        (path.splitOn '/').length - count := by
    split <;> omega
  have finish : (if ((path.splitOn '/').length : ℤ) < 0 then
      max ((path.splitOn '/').length + ((path.splitOn '/').length : ℤ)) 0
      else min ((path.splitOn '/').length : ℤ) (path.splitOn '/').length).toNat = (path.splitOn '/').length := by
    split <;> omega
  rw [lastParts, slice]
  dsimp only
  rw [start, finish, List.take_length]

/-- A label with a part more shows what the shorter one shows. -/
theorem lastParts_of_succ {other : List Char} (positive : 1 ≤ count) (available : count < (path.splitOn '/').length)
    (also : count < (other.splitOn '/').length) (same : lastParts (count + 1) path = lastParts (count + 1) other) :
    lastParts count path = lastParts count other := by
  have parts {text : List Char} (more : count < (text.splitOn '/').length) :
      (lastParts (count + 1) text).splitOn '/' = (text.splitOn '/').drop ((text.splitOn '/').length - (count + 1)) := by
    rw [lastParts_drop more, List.splitOn_intercalate '/' fun part among => Separated.not_mem_part (List.mem_of_mem_drop among)]
    exact List.ne_nil_of_length_pos (by rw [List.length_drop]; omega)
  have shorter {text : List Char} (more : count < (text.splitOn '/').length) :
      lastParts count text = ['/'].intercalate (((lastParts (count + 1) text).splitOn '/').drop 1) := by
    rw [lastParts_drop more.le, parts more, List.drop_drop]
    congr 2
    omega
  rw [shorter available, shorter also, same]

/-- More parts tell the paths apart as well, where all of them have so many. -/
theorem Tells.mono (tells : Tells count paths) (positive : 1 ≤ count) (more : count ≤ number)
    (available : ∀ path ∈ paths, number ≤ (path.splitOn '/').length) : Tells number paths := by
  induction number, more using Nat.le_induction with
  | base => exact tells
  | succ number more ih =>
      intro first here second there different same
      have told := ih (fun path among => (Nat.le_succ number).trans (available path among))
      refine told first here second there different ?_
      rw [← lastParts_eq (positive.trans more), ← lastParts_eq (positive.trans more)]
      rw [← lastParts_eq (by omega), ← lastParts_eq (by omega)] at same
      exact lastParts_of_succ (positive.trans more) (available first here) (available second there) same

end Parts

/-! ### The search -/

section Search

variable {array seen paths : List (List Char)} {value : List Char} {count minimum turns : ℕ}

/-- A value is seen before, or twice among the values. -/
theorem hasDuplicatesFrom_iff :
    hasDuplicatesFrom seen array = true ↔ (∃ value ∈ array, value ∈ seen) ∨ ¬ array.Nodup := by
  induction array generalizing seen with
  | nil => simp [hasDuplicatesFrom]
  | cons value rest ih =>
      rw [hasDuplicatesFrom, List.exists_mem_cons_iff, List.nodup_cons]
      by_cases before : value ∈ seen
      · rw [if_pos before]
        exact iff_of_true rfl (Or.inl (Or.inl before))
      · rw [if_neg before, ih, or_iff_right before]
        simp only [List.mem_append, List.mem_singleton, not_and_or, not_not]
        constructor
        · intro later
          rcases later with ⟨other, among, here | same⟩ | twice
          · exact Or.inl ⟨other, among, here⟩
          · exact Or.inr (Or.inl (same ▸ among))
          · exact Or.inr (Or.inr twice)
        · intro later
          rcases later with ⟨other, among, here⟩ | there | twice
          · exact Or.inl ⟨other, among, Or.inl here⟩
          · exact Or.inl ⟨value, there, Or.inr rfl⟩
          · exact Or.inr twice

theorem hasDuplicates_iff : hasDuplicates array = true ↔ ¬ array.Nodup := by
  rw [hasDuplicates, hasDuplicatesFrom_iff]
  simp

/-- `remove_duplicates` leaves each value once. -/
theorem removeDuplicates_spec : (removeDuplicates array).Nodup ∧ ∀ value, value ∈ removeDuplicates array ↔ value ∈ array := by
  have loop (uniq : List (List Char)) (single : uniq.Nodup) :
      (array.foldl (fun uniq value => if value ∈ uniq then uniq else uniq ++ [value]) uniq).Nodup ∧
        ∀ value, value ∈ array.foldl (fun uniq value => if value ∈ uniq then uniq else uniq ++ [value]) uniq ↔
          value ∈ uniq ∨ value ∈ array := by
    induction array generalizing uniq with
    | nil => simpa using single
    | cons first rest ih =>
        rw [List.foldl_cons]
        by_cases known : first ∈ uniq
        · rw [if_pos known]
          obtain ⟨once, members⟩ := ih uniq single
          refine ⟨once, fun value => (members value).trans ?_⟩
          rw [List.mem_cons, ← or_assoc]
          refine or_congr_left ⟨Or.inl, fun either => ?_⟩
          exact either.elim id fun same => same ▸ known
        · rw [if_neg known]
          obtain ⟨once, members⟩ := ih (uniq ++ [first])
            (List.nodup_append.mpr ⟨single, List.nodup_singleton _, by
              intro value among other here same
              exact known (List.mem_singleton.mp here ▸ same ▸ among)⟩)
          refine ⟨once, fun value => (members value).trans ?_⟩
          rw [List.mem_append, List.mem_singleton, List.mem_cons, or_assoc]
  simpa [removeDuplicates] using loop [] List.nodup_nil

/-- Nothing is seen twice exactly if the labels tell the paths apart. -/
theorem hasDuplicates_labels (single : paths.Nodup) (positive : 1 ≤ count) :
    hasDuplicates (paths.map (lastParts count)) = false ↔ Tells count paths := by
  rw [← Bool.not_eq_true, hasDuplicates_iff, not_not, List.nodup_map_iff_inj_on single]
  refine forall₂_congr fun first _ => forall₂_congr fun second _ => ?_
  rw [lastParts_eq positive, lastParts_eq positive, not_imp_not.symm]

/-- The shortest so far, with some more lengths. -/
theorem foldl_least {lengths : List ℕ} {shortest : Option ℕ} :
    lengths.foldl least shortest = (shortest.toList ++ lengths).min? := by
  induction lengths generalizing shortest with
  | nil => cases shortest <;> simp
  | cons first rest ih =>
      rw [List.foldl_cons, ih]
      cases shortest with
      | none => simp [least]
      | some known =>
          show (min known first :: rest).min? = (known :: first :: rest).min?
          rw [List.min?_cons', List.min?_cons', List.foldl_cons]

/-- **The loop ends**, with the first number that tells the paths apart, or with that of the shortest path. -/
theorem minimumLoop_fewest (single : paths.Nodup) {shortest : Option ℕ}
    (known : ∀ length, shortest = some length → ∃ path ∈ paths, (path.splitOn '/').length = length)
    (positive : 1 ≤ minimum) (below : ∀ smaller, 1 ≤ smaller → smaller < minimum → ¬ Tells smaller paths)
    (available : ∀ path ∈ paths, minimum ≤ (path.splitOn '/').length)
    (enough : ∃ path ∈ paths, (path.splitOn '/').length < minimum + turns) :
    ∃ count, minimumLoop paths turns minimum shortest = some count ∧ Fewest paths count := by
  -- The induction is on the turns: no number below `minimum` tells the paths apart, and all paths have so many parts.
  induction turns generalizing minimum shortest with
  | zero =>
      obtain ⟨path, among, more⟩ := enough
      exact absurd (available path among) (not_le.mpr more)
  | succ turns ih =>
      obtain ⟨within, among, more⟩ := enough
      obtain ⟨length, folded⟩ := Option.isSome_iff_exists.mp (List.isSome_min?_of_mem
        (List.mem_append_right shortest.toList (List.mem_map_of_mem (f := fun path => (path.splitOn '/').length) among)))
      obtain ⟨taken, all⟩ := List.min?_eq_some_iff.mp folded
      have reached : ∃ path ∈ paths, (path.splitOn '/').length = length := by
        rcases List.mem_append.mp taken with before | listed
        · exact known length (Option.mem_toList.mp before)
        · exact List.mem_map.mp listed
      rw [minimumLoop]
      simp only [foldl_least, folded, Option.any_some]
      by_cases told : hasDuplicates (paths.map (lastParts minimum)) = false
      · rw [if_pos (by rw [told]; rfl)]
        exact ⟨minimum, rfl, positive, below, available, Or.inl ((hasDuplicates_labels single positive).mp told)⟩
      · rw [if_neg (by simpa using told)]
        have untold := mt (hasDuplicates_labels single positive).mpr told
        by_cases last : length ≤ minimum
        · rw [if_pos (by simpa using last)]
          obtain ⟨path, here, parts⟩ := reached
          have same : minimum = length := le_antisymm (parts ▸ available path here) last
          exact ⟨length, rfl, same ▸ positive, same ▸ below, same ▸ available, Or.inr ⟨path, here, parts⟩⟩
        · rw [if_neg (by simpa using last)]
          refine ih ?_ (by omega) ?_ ?_ ⟨within, among, by omega⟩
          · intro other same
            exact Option.some_inj.mp same ▸ reached
          · intro smaller here less
            rcases Nat.lt_succ_iff_lt_or_eq.mp less with before | same
            · exact below smaller here before
            · exact same ▸ untold
          · intro path here
            exact le_trans (not_le.mp last) (all _ (List.mem_append_right _ (List.mem_map_of_mem here)))

/-- **The number**: whatever the paths, the search ends with it. -/
theorem getMinimumParts_fewest (texts : List (List Char)) : ∃ count, Fewest (texts.map withoutLine) count ∧
    ∃ bound, ∀ turns, bound ≤ turns → getMinimumParts turns texts = some count := by
  by_cases few : texts.length ≤ 1
  · refine ⟨1, Fewest.single fun first here second there => ?_, 0, fun turns _ => if_pos few⟩
    match texts, few with
    | [text], _ => exact (List.mem_singleton.mp here).trans (List.mem_singleton.mp there).symm
  · obtain ⟨once, members⟩ := @removeDuplicates_spec (texts.map withoutLine)
    cases files : removeDuplicates (texts.map withoutLine) with
    | nil =>
        match texts with
        | [] => exact absurd (Nat.zero_le 1) few
        | text :: _ => exact absurd ((members _).mpr List.mem_cons_self) (files ▸ List.not_mem_nil)
    | cons file rest =>
        rw [files] at once members
        by_cases same : (file :: rest).all (some · = (file :: rest).head?)
        · refine ⟨1, Fewest.congr members (Fewest.single fun first here second there => ?_), 0, fun turns _ => ?_⟩
          · have head {path : List Char} (among : path ∈ file :: rest) : path = file := by
              simpa using List.all_eq_true.mp same path among
            exact (head here).trans (head there).symm
          · simp only [getMinimumParts, if_neg few, files, if_pos same]
        · have ends (turns : ℕ) (enough : (file.splitOn '/').length ≤ turns) :=
            @minimumLoop_fewest (file :: rest) 1 turns once none (by simp) le_rfl
              (fun smaller positive less => absurd less (not_lt.mpr positive))
              (fun path _ => List.length_pos_of_ne_nil (List.splitOn_ne_nil _ path))
              ⟨file, List.mem_cons_self, by omega⟩
          obtain ⟨count, _, fewest⟩ := ends _ le_rfl
          refine ⟨count, Fewest.congr members fewest, (file.splitOn '/').length, fun turns enough => ?_⟩
          obtain ⟨other, found, also⟩ := ends turns enough
          simp only [getMinimumParts, if_neg few, files, if_neg same]
          rw [found, also.unique fewest]

end Search

/-! ### The labels of the legend -/

/-- What the legend lists: a file, with the number of a line or without. -/
structure Entry where
  file : List Char
  line : Option ℕ

/-- The text of an entry. -/
def Entry.text (entry : Entry) : List Char :=
  match entry.line with
  | none => entry.file
  | some line => entry.file ++ ':' :: Nat.toDigits 10 line

/-- Without colons in the file, the line number is what goes. -/
theorem Entry.withoutLine_text {entry : Entry} (plain : ':' ∉ entry.file) : withoutLine entry.text = entry.file := by
  have kept {file rest : List Char} (plain : ':' ∉ file) : withoutLine (file ++ rest) = file ++ withoutLine rest := by
    induction file with
    | nil => rfl
    | cons ch file ih =>
        rw [List.mem_cons, not_or] at plain
        rw [List.cons_append, withoutLine, if_neg (Ne.symm plain.1), ih plain.2, List.cons_append]
  obtain ⟨file, line⟩ := entry
  cases line with
  | none =>
      show withoutLine file = file
      simpa [withoutLine] using @kept file [] plain
  | some number =>
      have gone : (Nat.toDigits 10 number).dropWhile Char.isDigit = [] :=
        List.dropWhile_eq_nil_iff.mpr fun _ among => Nat.isDigit_of_mem_toDigits (by decide) (by decide) among
      show withoutLine (file ++ ':' :: Nat.toDigits 10 number) = file
      rw [kept plain, withoutLine, if_pos rfl, gone, List.append_nil]

/-- What goes from a text is no slash. -/
theorem Entry.count_withoutLine {entry : Entry} : (withoutLine entry.text).count '/' = entry.file.count '/' := by
  have digits {rest : List Char} : (rest.dropWhile Char.isDigit).count '/' = rest.count '/' := by
    induction rest with
    | nil => rfl
    | cons ch rest ih =>
        by_cases digit : ch.isDigit
        · have other : ch ≠ '/' := by
            rintro rfl
            exact absurd digit (by decide)
          rw [List.dropWhile_cons, if_pos digit, ih, List.count_cons_of_ne other]
        · rw [List.dropWhile_cons, if_neg digit]
  have stripped {text : List Char} : (withoutLine text).count '/' = text.count '/' := by
    induction text with
    | nil => rfl
    | cons ch rest ih =>
        by_cases colon : ch = ':'
        · rw [withoutLine, if_pos colon, digits, colon, List.count_cons_of_ne (by decide)]
        · rw [withoutLine, if_neg colon, List.count_cons, List.count_cons, ih]
  rw [stripped]
  obtain ⟨file, line⟩ := entry
  cases line with
  | none => rfl
  | some number =>
      have absent : '/' ∉ Nat.toDigits 10 number := fun among =>
        absurd (Nat.isDigit_of_mem_toDigits (b := 10) (by decide) (by decide) among) (by decide)
      show (file ++ ':' :: Nat.toDigits 10 number).count '/' = file.count '/'
      rw [List.count_append, List.count_cons_of_ne (by decide), List.count_eq_zero.mpr absent, Nat.add_zero]

/-- A text keeps its parts without what the page takes for the line number. -/
theorem Entry.length_withoutLine {entry : Entry} :
    ((withoutLine entry.text).splitOn '/').length = (entry.file.splitOn '/').length := by
  rw [length_splitOn, length_splitOn, entry.count_withoutLine]

/-- So many parts tell the files of the entries apart, and no fewer do. -/
def Shortens (entries : List Entry) (count : ℕ) : Prop :=
  Tells count (entries.map Entry.file) ∧
    ∀ smaller, 1 ≤ smaller → smaller < count → ¬ Tells smaller (entries.map Entry.file)

/-- Some number of parts that every file has tells the files apart. -/
def Distinguished (entries : List Entry) : Prop :=
  ∃ number, 1 ≤ number ∧ (∀ entry ∈ entries, number ≤ (entry.file.splitOn '/').length) ∧
    Tells number (entries.map Entry.file)

/-- With fewer parts than any file has, the stripped texts are told apart as the files are. -/
def StripsAlike (entries : List Entry) : Prop :=
  ∀ number, 1 ≤ number → (∀ entry ∈ entries, number < (entry.file.splitOn '/').length) →
    (Tells number (entries.map fun entry => withoutLine entry.text) ↔ Tells number (entries.map Entry.file))

/-- Nothing but the line numbers is stripped. -/
theorem stripsAlike_of_plain {entries : List Entry} (plain : ∀ entry ∈ entries, ':' ∉ entry.file) :
    StripsAlike entries := by
  intro number _ _
  rw [List.map_congr_left fun entry among => entry.withoutLine_text (plain entry among)]

/-- The number of the search, from the files that have to be told apart. -/
theorem shortens_iff {entries : List Entry} {count : ℕ}
    (fewest : Fewest (entries.map fun entry => withoutLine entry.text) count) :
    Shortens entries count ↔ Distinguished entries ∧ StripsAlike entries := by
  have has {number : ℕ} (available : ∀ entry ∈ entries, number ≤ (entry.file.splitOn '/').length) :
      (∀ path ∈ entries.map Entry.file, number ≤ (path.splitOn '/').length) ∧
        ∀ path ∈ entries.map fun entry => withoutLine entry.text, number ≤ (path.splitOn '/').length := by
    rw [List.forall_mem_map, List.forall_mem_map]
    exact ⟨available, fun entry among => entry.length_withoutLine ▸ available entry among⟩
  have within : ∀ entry ∈ entries, count ≤ (entry.file.splitOn '/').length := fun entry among =>
    entry.length_withoutLine ▸ fewest.available _ (List.mem_map_of_mem among)
  -- The search stops below the parts of the shortest path only with texts that are told apart.
  have stops : Tells count (entries.map fun entry => withoutLine entry.text) ∨
      ∃ entry ∈ entries, (entry.file.splitOn '/').length = count := by
    refine fewest.stops.imp_right fun shortest => ?_
    obtain ⟨path, among, length⟩ := shortest
    obtain ⟨entry, here, rfl⟩ := List.mem_map.mp among
    exact ⟨entry, here, entry.length_withoutLine ▸ length⟩
  constructor
  · intro shortens
    refine ⟨⟨count, fewest.positive, within, shortens.1⟩, fun number positive below => ?_⟩
    by_cases less : number < count
    · exact iff_of_false (fewest.below number positive less) (shortens.2 number positive less)
    · obtain ⟨files, texts⟩ := has fun entry among => (below entry among).le
      refine iff_of_true ?_ (shortens.1.mono fewest.positive (not_lt.mp less) files)
      rcases stops with told | ⟨entry, among, length⟩
      · exact told.mono fewest.positive (not_lt.mp less) texts
      · exact absurd (below entry among) (not_lt.mpr (length ▸ not_lt.mp less))
  · intro both
    obtain ⟨⟨number, positive, available, tells⟩, alike⟩ := both
    have last (shortest : ∃ entry ∈ entries, (entry.file.splitOn '/').length = count) :
        Tells count (entries.map Entry.file) := by
      obtain ⟨entry, among, length⟩ := shortest
      exact tells.mono positive (length ▸ available entry among) (has within).1
    refine ⟨?_, fun smaller one less told => ?_⟩
    · by_cases shortest : ∃ entry ∈ entries, (entry.file.splitOn '/').length = count
      · exact last shortest
      · refine (alike count fewest.positive fun entry among => ?_).mp (stops.resolve_right shortest)
        exact lt_of_le_of_ne (within entry among) fun same => shortest ⟨entry, among, same.symm⟩
    · refine fewest.below smaller one less ((alike smaller one fun entry among => ?_).mpr told)
      exact less.trans_le (within entry among)

/--
**The labels of different files are different**, with the fewest parts, exactly if some number of parts that every
file has tells the files apart and the stripped texts are told apart as the files are. Without colons in the files
nothing but line numbers is stripped, and the first is enough.
-/
theorem labels_tell_iff (entries : List Entry) : ∃ count,
    (∃ bound, ∀ turns, bound ≤ turns → getMinimumParts turns (entries.map Entry.text) = some count) ∧
    (Shortens entries count ↔ Distinguished entries ∧ StripsAlike entries) ∧
    ((∀ entry ∈ entries, ':' ∉ entry.file) → (Shortens entries count ↔ Distinguished entries)) := by
  obtain ⟨count, fewest, found⟩ := getMinimumParts_fewest (entries.map Entry.text)
  rw [List.map_map] at fewest
  have exactly := shortens_iff fewest
  exact ⟨count, found, exactly, fun plain => exactly.trans (and_iff_left (stripsAlike_of_plain plain))⟩

/-- Three files, one of them with two parts only. -/
def crossing : List Entry :=
  [⟨"/a.c".toList, some 7⟩, ⟨"/x/lib/b.c".toList, none⟩, ⟨"/y/lib/b.c".toList, some 12⟩]

/-- Two directories with a colon in their names. -/
def revisions : List Entry :=
  [⟨"/a:1/x.c".toList, none⟩, ⟨"/a:2/x.c".toList, some 12⟩]

/--
The search stops at the two parts of the first path, and with two parts the other files have one label. Of the
directories it strips the colon with what tells them apart, and leaves the line number.
-/
theorem labels_shortest :
    (getMinimumParts 2 (crossing.map Entry.text) = some 2 ∧
      getLastPathParts 2 "/x/lib/b.c".toList = "lib/b.c".toList ∧
      getLastPathParts 2 "/y/lib/b.c".toList = "lib/b.c".toList ∧ ¬ Shortens crossing 2) ∧
    getMinimumParts 2 (revisions.map Entry.text) = some 1 ∧ Distinguished revisions ∧ ¬ Shortens revisions 1 := by
  have first : getLastPathParts 2 "/x/lib/b.c".toList = "lib/b.c".toList := by decide +kernel
  have second : getLastPathParts 2 "/y/lib/b.c".toList = "lib/b.c".toList := by decide +kernel
  refine ⟨⟨by decide +kernel, first, second, fun shortens => ?_⟩, by decide +kernel, ?_, fun shortens => ?_⟩
  · exact shortens.1 "/x/lib/b.c".toList (by decide) "/y/lib/b.c".toList (by decide) (by decide)
      (first.trans second.symm)
  · refine ⟨2, by decide, by decide +kernel, ?_⟩
    unfold Tells
    decide +kernel
  · exact shortens.1 "/a:1/x.c".toList (by decide) "/a:2/x.c".toList (by decide) (by decide) (by decide +kernel)

end Mcoz.Viewer
