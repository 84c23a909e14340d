/-
The files that are loaded.

`get_loaded_files` reads `/proc/self/maps` and gives each file with an executable mapping the difference between the
mapping's address and its offset in the file, which is what an address of the file is moved by. The kernel's text of an
address space is read back line by line (`mapsLine_line`), so the table has the difference of the last executable
mapping of every absolute path, and nothing else: `get_getLoadedFiles`.
-/

import Mcoz.Lib.Dict
import Mcoz.Lib.Istream

set_option autoImplicit false

namespace Mcoz.Inspect

open Word Text Istream

/-! ### The loop over the lines -/

/-- What the loop keeps of a line, and the text after the line, if the line has an end. -/
structure MapsLine where
  base : UInt64
  perms : Bytes
  offset : UInt64
  path : Bytes
  rest : Option Bytes
deriving DecidableEq

/-- The operations on the stream in one turn of the loop; `none` if one fails, after which nothing is added. -/
def mapsLine (text : Bytes) : Option MapsLine := do
  let (base, text) ← extract .hex text
  let text ← expect 45 text
  let (_, text) ← extract .hex text
  let text ← expect 32 text
  let (perms, text) ← getChars 4 text
  let (offset, text) ← extract .hex text
  let (_, text) ← extract .hex text
  let text ← expect 58 text
  let (_, text) ← extract .hex text
  let (_, text) ← extract .dec text
  let (path, rest) := getLine (text.dropWhile fun ch => ch = 32 || ch = 9)
  return ⟨base, perms, offset, path, rest⟩

/-- `perms[2]`; the buffer is not initialized, and a line that ends after one character of it leaves this one as it
was. -/
def MapsLine.execute (line : MapsLine) (uninit : UInt8) : UInt8 :=
  match line.perms with
  | [_] => uninit
  | perms => perms.getD 2 0

/-- An executable mapping of an absolute path is put into the table. -/
def MapsLine.enter (line : MapsLine) (uninit : UInt8) (files : List (Bytes × UInt64)) : List (Bytes × UInt64) :=
  if line.execute uninit = 120 ∧ line.path.head? = some 47 then
    Dict.update line.path 0 (fun _ => line.base - line.offset) files
  else files

/-- The loop, for so many turns. -/
def readMaps (uninit : Bytes → UInt8) : ℕ → Bytes → List (Bytes × UInt64) → List (Bytes × UInt64)
  | 0, _, files => files
  | turns + 1, text, files =>
      match mapsLine text with
      | none => files
      | some line =>
          match line.rest with
          | none => line.enter (uninit text) files
          | some rest => readMaps uninit turns rest (line.enter (uninit text) files)

/-- `get_loaded_files`, from the text of `/proc/self/maps`. -/
def getLoadedFiles (uninit : Bytes → UInt8) (maps : Bytes) : List (Bytes × UInt64) :=
  readMaps uninit (maps.length + 1) maps []

/-! ### What the kernel prints -/

/-- A mapping of the address space; a name has no line end, and does not begin with a blank. -/
structure Mapping where
  start : UInt64
  limit : UInt64
  readable : Bool
  writable : Bool
  executable : Bool
  shared : Bool
  offset : UInt64
  major : UInt32
  minor : UInt32
  inode : UInt64
  path : Bytes
  oneLine : (10 : UInt8) ∉ path
  flush : path.head? ≠ some 32 ∧ path.head? ≠ some 9

/-- The letters of the permissions. -/
def Mapping.perms (mapping : Mapping) : Bytes :=
  [if mapping.readable then 114 else 45, if mapping.writable then 119 else 45,
    if mapping.executable then 120 else 45, if mapping.shared then 115 else 112]

/-- The columns before the name. -/
def Mapping.columns (mapping : Mapping) : Bytes :=
  Base.hex.numeral 8 mapping.start.toNat ++ 45 :: (Base.hex.numeral 8 mapping.limit.toNat ++ 32 ::
    (mapping.perms ++ 32 :: (Base.hex.numeral 8 mapping.offset.toNat ++ 32 ::
      (Base.hex.numeral 2 mapping.major.toNat ++ 58 :: (Base.hex.numeral 2 mapping.minor.toNat ++ 32 ::
        (Base.dec.numeral 1 mapping.inode.toNat ++ [32]))))))

/-- The line of a mapping: a name stands in its own column. -/
def Mapping.line (mapping : Mapping) : Bytes :=
  mapping.columns ++
    ((if mapping.path = [] then [] else List.replicate (73 - mapping.columns.length) 32 ++ mapping.path) ++ [10])

/-- What an address of the file is moved by. -/
def Mapping.load (mapping : Mapping) : UInt64 :=
  mapping.start - mapping.offset

/-- An executable mapping of an absolute path. -/
def Mapping.Loads (mapping : Mapping) (path : Bytes) : Prop :=
  mapping.executable = true ∧ mapping.path = path ∧ path.head? = some 47

instance {mapping : Mapping} {path : Bytes} : Decidable (mapping.Loads path) :=
  inferInstanceAs (Decidable (_ ∧ _))

/-- An address space: its mappings, none of which begins before the end of one listed earlier. -/
structure AddressSpace where
  mappings : List Mapping
  ascending : mappings.Pairwise fun first second => first.limit ≤ second.start

/-- `/proc/self/maps`. -/
def AddressSpace.maps (space : AddressSpace) : Bytes :=
  space.mappings.flatMap Mapping.line

/-- What the addresses of a path are moved by, which is for its last executable mapping. -/
def AddressSpace.loadBase (space : AddressSpace) (path : Bytes) : Option UInt64 :=
  ((space.mappings.filter fun mapping => mapping.Loads path).getLast?).map Mapping.load

/-! ### The text is read back -/

section Line

variable {mapping : Mapping} {rest : Bytes} {uninit : Bytes → UInt8} {files : List (Bytes × UInt64)}

theorem ends_minus : Ends 45 := by
  refine ⟨rfl, ?_, ?_⟩ <;> decide

theorem ends_blank : Ends 32 := by
  refine ⟨rfl, ?_, ?_⟩ <;> decide

theorem ends_colon : Ends 58 := by
  refine ⟨rfl, ?_, ?_⟩ <;> decide

/-- A printed number is read back, at the head of a text or after one blank. -/
theorem extract_column {base : Base} {width value : ℕ} {ch : UInt8} (wide : 0 < width) (fits : value < 2 ^ 64)
    (ends : Ends ch) :
    extract base (base.numeral width value ++ ch :: rest) = some (UInt64.ofNat value, ch :: rest) ∧
      extract base (32 :: (base.numeral width value ++ ch :: rest)) = some (UInt64.ofNat value, ch :: rest) :=
  ⟨@extract_numeral base width value ch rest [] (fun _ among => by cases among) wide fits ends,
    @extract_numeral base width value ch rest [32]
      (fun _ among => by rw [List.mem_singleton.mp among]; rfl) wide fits ends⟩

/-- The name is read after the blanks before it. -/
theorem getLine_name {blanks : ℕ} : getLine ((32 ::
    (((if mapping.path = [] then [] else List.replicate blanks 32 ++ mapping.path) ++ [10]) ++ rest)).dropWhile
      fun ch => ch = 32 || ch = 9) = (mapping.path, some rest) := by
  have name : (mapping.path ++ 10 :: rest).dropWhile (fun ch => ch = 32 || ch = 9) = mapping.path ++ 10 :: rest := by
    refine dropWhile_eq_self fun ch first => ?_
    cases shape : mapping.path with
    | nil =>
        rw [shape] at first
        cases first
        rfl
    | cons head tail =>
        obtain ⟨blank, tab⟩ := mapping.flush
        rw [shape] at first blank tab
        have same : ch = head := (Option.some.inj first).symm
        subst same
        have blank' : ch ≠ 32 := fun same => blank (congrArg some same)
        have tab' : ch ≠ 9 := fun same => tab (congrArg some same)
        simp [blank', tab']
  rw [List.dropWhile_cons_of_pos (by decide)]
  by_cases unnamed : mapping.path = []
  · rw [if_pos unnamed, List.nil_append, unnamed]
    exact getLine_line List.not_mem_nil
  · rw [if_neg unnamed, List.append_assoc, List.append_assoc, List.singleton_append,
      List.dropWhile_append_of_pos fun ch among => by rw [List.eq_of_mem_replicate among]; rfl, name]
    exact getLine_line mapping.oneLine

/-- **A line is read back.** -/
theorem mapsLine_line : mapsLine (mapping.line ++ rest) =
    some ⟨mapping.start, mapping.perms, mapping.offset, mapping.path, some rest⟩ := by
  have wide (word : UInt32) : word.toNat < 2 ^ 64 := word.toNat_lt.trans (by decide)
  have perms : (10 : UInt8) ∉ mapping.perms := by
    unfold Mapping.perms
    cases mapping.readable <;> cases mapping.writable <;> cases mapping.executable <;> cases mapping.shared <;>
      decide
  have shape : mapping.line ++ rest = Base.hex.numeral 8 mapping.start.toNat ++ 45 ::
      (Base.hex.numeral 8 mapping.limit.toNat ++ 32 :: (mapping.perms ++ 32 ::
        (Base.hex.numeral 8 mapping.offset.toNat ++ 32 :: (Base.hex.numeral 2 mapping.major.toNat ++ 58 ::
          (Base.hex.numeral 2 mapping.minor.toNat ++ 32 :: (Base.dec.numeral 1 mapping.inode.toNat ++ 32 ::
            (((if mapping.path = [] then [] else List.replicate (73 - mapping.columns.length) 32 ++ mapping.path) ++
              [10]) ++ rest))))))) := by
    simp only [Mapping.line, Mapping.columns, List.append_assoc, List.cons_append, List.nil_append]
  have four (tail : Bytes) : getChars 4 (mapping.perms ++ 32 :: tail) = some (mapping.perms, 32 :: tail) :=
    @getChars_append 32 mapping.perms tail (List.cons_ne_nil _ _) perms
  unfold mapsLine
  rw [shape, (extract_column (by decide) mapping.start.toNat_lt ends_minus).1]
  show Option.bind (extract .hex _) _ = _
  rw [(extract_column (by decide) mapping.limit.toNat_lt ends_blank).1]
  show Option.bind (getChars 4 _) _ = _
  rw [four]
  show Option.bind (extract .hex _) _ = _
  rw [(extract_column (by decide) mapping.offset.toNat_lt ends_blank).2]
  show Option.bind (extract .hex _) _ = _
  rw [(extract_column (by decide) (wide mapping.major) ends_colon).2]
  show Option.bind (extract .hex _) _ = _
  rw [(extract_column (by decide) (wide mapping.minor) ends_blank).1]
  show Option.bind (extract .dec _) _ = _
  rw [(extract_column (by decide) mapping.inode.toNat_lt ends_blank).2]
  show some (MapsLine.mk _ _ _ (getLine _).1 (getLine _).2) = _
  rw [getLine_name, UInt64.ofNat_toNat, UInt64.ofNat_toNat]

/-- What the line of a mapping puts into the table. -/
def Mapping.enter (files : List (Bytes × UInt64)) (mapping : Mapping) : List (Bytes × UInt64) :=
  if mapping.Loads mapping.path then Dict.update mapping.path 0 (fun _ => mapping.load) files else files

theorem enter_line {char : UInt8} :
    (MapsLine.mk mapping.start mapping.perms mapping.offset mapping.path (some rest)).enter char files =
      mapping.enter files := by
  have letter : (MapsLine.mk mapping.start mapping.perms mapping.offset mapping.path (some rest)).execute char = 120 ↔
      mapping.executable = true := by
    show (if mapping.executable then (120 : UInt8) else 45) = 120 ↔ _
    cases mapping.executable <;> decide
  have same : mapping.Loads mapping.path ↔ mapping.executable = true ∧ mapping.path.head? = some 47 :=
    and_congr_right fun _ => and_iff_right rfl
  unfold MapsLine.enter Mapping.enter
  simp only [letter, same]
  rfl

/-- The loop reads all lines, given enough turns. -/
theorem readMaps_lines {mappings : List Mapping} {turns : ℕ} (enough : mappings.length < turns) :
    readMaps uninit turns (mappings.flatMap Mapping.line) files = mappings.foldl (fun files mapping =>
      mapping.enter files) files := by
  induction mappings generalizing files turns with
  | nil =>
      obtain ⟨more, rfl⟩ := Nat.exists_eq_succ_of_ne_zero (Nat.ne_of_gt enough)
      rfl
  | cons mapping later ih =>
      obtain ⟨more, rfl⟩ := Nat.exists_eq_succ_of_ne_zero (Nat.ne_of_gt (Nat.zero_lt_of_lt enough))
      rw [List.flatMap_cons, readMaps, mapsLine_line]
      dsimp only
      rw [enter_line, ih (Nat.lt_of_succ_lt_succ enough), List.foldl_cons]

end Line

section Table

variable {space : AddressSpace} {mappings : List Mapping} {path : Bytes} {uninit : Bytes → UInt8}

/-- A line is not empty: it ends. -/
theorem line_ne_nil {mapping : Mapping} : mapping.line ≠ [] := by
  intro empty
  exact absurd (List.append_eq_nil_iff.mp (List.append_eq_nil_iff.mp empty).2).2 (List.cons_ne_nil _ _)

theorem getLoadedFiles_maps :
    getLoadedFiles uninit space.maps = space.mappings.foldl (fun files mapping => mapping.enter files) [] :=
  readMaps_lines (Nat.lt_succ_of_le (length_le_flatMap fun _ _ => line_ne_nil))

/-- What the lines leave for a path. -/
theorem get_enter : Dict.get (mappings.foldl (fun files mapping => mapping.enter files) []) path =
    ((mappings.filter fun mapping => mapping.Loads path).getLast?).map Mapping.load := by
  induction mappings using List.reverseRecOn with
  | nil => rfl
  | append_singleton earlier mapping ih =>
      rw [List.foldl_append, List.foldl_cons, List.foldl_nil, List.filter_append]
      by_cases loads : mapping.Loads path
      · obtain ⟨-, rfl, -⟩ := id loads
        have last : [mapping].filter (fun other => other.Loads mapping.path) = [mapping] :=
          List.filter_cons_of_pos (decide_eq_true loads)
        rw [Mapping.enter, if_pos loads, Dict.get_update, if_pos rfl, last, List.getLast?_concat]
        rfl
      · have kept : Dict.get (mapping.enter (earlier.foldl (fun files mapping => mapping.enter files) [])) path =
            Dict.get (earlier.foldl (fun files mapping => mapping.enter files) []) path := by
          unfold Mapping.enter
          by_cases own : mapping.Loads mapping.path
          · have other : path ≠ mapping.path := fun same => loads (same ▸ own)
            rw [if_pos own, Dict.get_update, if_neg other]
          · rw [if_neg own]
        have nothing : [mapping].filter (fun other => other.Loads path) = [] :=
          List.filter_cons_of_neg (by simpa using loads)
        rw [kept, ih, nothing, List.append_nil]

/-- **The loaded files**: the text of an address space gives each absolute path the difference of its last executable
mapping, and nothing else. -/
theorem get_getLoadedFiles : Dict.get (getLoadedFiles uninit space.maps) path = space.loadBase path := by
  rw [getLoadedFiles_maps, get_enter]
  rfl

/-- No path is in the table twice. -/
theorem nodup_getLoadedFiles : ((getLoadedFiles uninit space.maps).map Prod.fst).Nodup := by
  rw [getLoadedFiles_maps]
  induction space.mappings using List.reverseRecOn with
  | nil => exact List.nodup_nil
  | append_singleton earlier mapping ih =>
      rw [List.foldl_append, List.foldl_cons, List.foldl_nil, Mapping.enter]
      by_cases own : mapping.Loads mapping.path
      · rw [if_pos own]
        exact Dict.nodup_update ih
      · rw [if_neg own]
        exact ih

end Table

end Mcoz.Inspect
