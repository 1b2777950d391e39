import SeriesxEmu.IoQueue
import SeriesxEmu.KeyedLists
import SeriesxEmu.Transcripts

/-!
# The virtual file system as a map

The files of `Vfs` are a list of paths with contents that is scanned for every request. What a
client sees of it is a partial map from paths to contents: every sequence of requests gets the
answers that the map gives, although readers check paths that the map need not check and the list
could hold a path twice.
-/

namespace SeriesxEmu

namespace Vfs

/-! ## The other requests -/

/-- `create_file` from a pointer, which may be null. -/
def createFrom (vfs : Vfs) (path : List Char) (source : Option (List UInt8)) (size : Nat) : Vfs × Bool :=
  if source.isNone && size != 0 then (vfs, false)
  else if kMaxFile < size then (vfs, false)
  else vfs.createFile path ((source.getD []).take size)

/-- `read_file`: the whole content, or nothing for an invalid path. -/
def readFile (vfs : Vfs) (path : List Char) : Option (List UInt8) := if !validPath path then none else vfs.find path

/-- `exists`. -/
def pathExists (vfs : Vfs) (path : List Char) : Bool := if !validPath path then false else (vfs.find path).isSome

/-- `file_size`. -/
def fileSize (vfs : Vfs) (path : List Char) : Option Nat :=
  if !validPath path then none else (vfs.find path).map List.length

/-- `file_count`. -/
def fileCount (vfs : Vfs) : Nat := vfs.files.length

/-- The calls that the file system takes. -/
inductive Request where
  | createFile (path : List Char) (data : List UInt8)
  | createFrom (path : List Char) (source : Option (List UInt8)) (size : Nat)
  | writeFile (path : List Char) (data : List UInt8)
  | readFile (path : List Char)
  | readSlice (path : List Char) (offset size : Nat)
  | pathExists (path : List Char)
  | fileSize (path : List Char)
  | removeFile (path : List Char)
  | fileCount
deriving DecidableEq

/-- What a call gives back. -/
inductive Answer where
  | done (ok : Bool)
  | content (data : Option (List UInt8))
  | size (bytes : Option Nat)
  | count (files : Nat)
deriving DecidableEq

/-- A request with its answer. -/
def serve (vfs : Vfs) : Request → Vfs × Answer
  | .createFile path data => (vfs.createFile path data).map id .done
  | .createFrom path source size => (vfs.createFrom path source size).map id .done
  | .writeFile path data => (vfs.writeFile path data).map id .done
  | .readFile path => (vfs, .content (vfs.readFile path))
  | .readSlice path offset size => (vfs, .content (vfs.readSlice path offset size))
  | .pathExists path => (vfs, .done (vfs.pathExists path))
  | .fileSize path => (vfs, .size (vfs.fileSize path))
  | .removeFile path => (vfs.removeFile path).map id .done
  | .fileCount => (vfs, .count vfs.fileCount)

end Vfs

/-! ## The map -/

/-- The files as a client thinks of them. -/
abbrev FileMap : Type := List Char → Option (List UInt8)

namespace FileMap

/-- What may become a file. -/
def Admitted (path : List Char) (data : List UInt8) : Prop := Vfs.validPath path = true ∧ data.length ≤ kMaxFile

instance (path : List Char) (data : List UInt8) : Decidable (Admitted path data) := inferInstanceAs (Decidable (_ ∧ _))

/-- A new file, unless there is one. -/
def create (files : FileMap) (path : List Char) (data : List UInt8) : FileMap × Vfs.Answer :=
  if Admitted path data ∧ files path = none then (Function.update files path (some data), .done true)
  else (files, .done false)

/-- What a client expects. Only the requests that make files look at the form of the path. -/
noncomputable def serve (files : FileMap) : Vfs.Request → FileMap × Vfs.Answer
  | .createFile path data => files.create path data
  | .createFrom path source size =>
    if (source = none → size = 0) ∧ size ≤ kMaxFile then files.create path ((source.getD []).take size)
    else (files, .done false)
  | .writeFile path data =>
    if Admitted path data then (Function.update files path (some data), .done true) else (files, .done false)
  | .readFile path => (files, .content (files path))
  | .readSlice path offset size =>
    (files, .content ((files path).bind (fun data =>
      if 0 < size ∧ offset + size ≤ data.length then some ((data.drop offset).take size) else none)))
  | .pathExists path => (files, .done (files path).isSome)
  | .fileSize path => (files, .size ((files path).map List.length))
  | .removeFile path => (Function.update files path none, .done (files path).isSome)
  | .fileCount => (files, .count {path | files path ≠ none}.ncard)

end FileMap

namespace Vfs

open KeyedLists Transcripts

/-- The list stands for the map: no path is there twice, and each file was admitted. -/
structure Represents (vfs : Vfs) (files : FileMap) : Prop where
  find : lookup vfs.files = files
  distinct : (keys vfs.files).Nodup
  admitted : ∀ path data, files path = some data → FileMap.Admitted path data

namespace Represents

variable {vfs : Vfs} {files : FileMap} {path : List Char}

/-- A lookup finds what the map holds at the path. -/
theorem found (represents : Represents vfs files) (path : List Char) : vfs.find path = files path :=
  congrFun represents.find path

/-- The map holds nothing at an invalid path. -/
theorem invalid (represents : Represents vfs files) (refused : validPath path = false) : files path = none := by
  cases bound : files path with
  | none => rfl
  | some data =>
    rw [(represents.admitted path data bound).1] at refused
    cases refused

/-- A file that was admitted is bound. -/
theorem update (represents : Represents vfs files) {entries : List (List Char × List UInt8)} {data : List UInt8}
    (admitted : FileMap.Admitted path data)
    (looked : lookup entries = Function.update (lookup vfs.files) path (some data)) (distinct : (keys entries).Nodup) :
    Represents { files := entries } (Function.update files path (some data)) := by
  refine ⟨by rw [looked, represents.find], distinct, fun other content bound => ?_⟩
  rw [Function.update_apply] at bound
  split at bound
  · rename_i same
    rw [same, ← Option.some.inj bound]
    exact admitted
  · exact represents.admitted other content bound

/-- The two checks that every request makes that stores a file. -/
theorem refused_iff (path : List Char) (data : List UInt8) :
    (!validPath path || decide (kMaxFile < data.length)) = true ↔ ¬ FileMap.Admitted path data := by
  rw [FileMap.Admitted, Bool.or_eq_true, Bool.not_eq_true', decide_eq_true_eq, not_and_or, Bool.not_eq_true,
    Nat.not_le]

/-- Creating a file in both keeps them in step, with the same answer. -/
theorem create (represents : Represents vfs files) (path : List Char) (data : List UInt8) :
    Represents (vfs.createFile path data).1 (files.create path data).1 ∧
      .done (vfs.createFile path data).2 = (files.create path data).2 := by
  rw [createFile, FileMap.create]
  by_cases admitted : FileMap.Admitted path data
  · rw [if_neg (by rw [refused_iff]; exact not_not.mpr admitted), represents.found path]
    cases bound : files path with
    | some content =>
      rw [Option.isSome_some, if_pos rfl, if_neg (fun both => by cases both.2)]
      exact ⟨represents, rfl⟩
    | none =>
      have free : lookup vfs.files path = none := (represents.found path).trans bound
      rw [Option.isSome_none, if_neg Bool.false_ne_true, if_pos ⟨admitted, rfl⟩]
      exact ⟨represents.update admitted (lookup_append free data) (keys_append represents.distinct free data), rfl⟩
  · rw [if_pos ((refused_iff path data).mpr admitted), if_neg (fun both => admitted both.1)]
    exact ⟨represents, rfl⟩

/-- So does writing a file. -/
theorem write (represents : Represents vfs files) (path : List Char) (data : List UInt8) :
    Represents (vfs.writeFile path data).1 (files.serve (.writeFile path data)).1 ∧
      .done (vfs.writeFile path data).2 = (files.serve (.writeFile path data)).2 := by
  rw [writeFile, FileMap.serve]
  by_cases admitted : FileMap.Admitted path data
  · rw [if_neg (by rw [refused_iff]; exact not_not.mpr admitted), if_pos admitted]
    cases place : vfs.files.findIdx? (fun file => file.1 == path) with
    | some index =>
      obtain ⟨looked, kept⟩ := lookup_set place data
      exact ⟨represents.update admitted looked (kept ▸ represents.distinct), rfl⟩
    | none =>
      have free : lookup vfs.files path = none := by
        have absent := List.findIdx?_eq_none_iff.mp place
        rw [lookup, List.find?_eq_none.mpr (fun file member => by rw [absent file member]; exact Bool.false_ne_true)]
        rfl
      exact ⟨represents.update admitted (lookup_append free data) (keys_append represents.distinct free data), rfl⟩
  · rw [if_pos ((refused_iff path data).mpr admitted), if_neg admitted]
    exact ⟨represents, rfl⟩

/-- So does removing one. -/
theorem remove (represents : Represents vfs files) (path : List Char) :
    Represents (vfs.removeFile path).1 (files.serve (.removeFile path)).1 ∧
      .done (vfs.removeFile path).2 = (files.serve (.removeFile path)).2 := by
  rw [removeFile, FileMap.serve]
  cases valid : validPath path with
  | true =>
    simp only [Bool.not_true, Bool.false_eq_true, ↓reduceIte]
    refine ⟨⟨by rw [lookup_eraseP represents.distinct, represents.find], keys_eraseP represents.distinct path,
      fun other data bound => ?_⟩, by rw [represents.found path]⟩
    rw [Function.update_apply] at bound
    split at bound
    · cases bound
    · exact represents.admitted other data bound
  | false =>
    have absent := represents.invalid valid
    have same : Function.update files path none = files := by rw [← absent, Function.update_eq_self]
    simp only [Bool.not_false, ↓reduceIte, same, absent, Option.isSome_none]
    exact ⟨represents, trivial⟩

/-- Readers check the path; the map need not. -/
theorem checked (represents : Represents vfs files) (path : List Char) {Value : Type}
    (answer : Option (List UInt8) → Value) (refusal : Value) (agrees : answer none = refusal) :
    (if !validPath path then refusal else answer (vfs.find path)) = answer (files path) := by
  cases valid : validPath path with
  | true => exact congrArg answer (represents.found path)
  | false => exact agrees.symm.trans (congrArg answer (represents.invalid valid).symm)

/-- A slice is cut from the content when it lies inside of it, and is refused otherwise. -/
theorem slice (represents : Represents vfs files) (path : List Char) (offset size : Nat) :
    vfs.readSlice path offset size = (files path).bind (fun data =>
      if 0 < size ∧ offset + size ≤ data.length then some ((data.drop offset).take size) else none) := by
  rw [readSlice]
  by_cases empty : size = 0
  · simp only [empty, beq_self_eq_true, Bool.or_true, ↓reduceIte, Nat.lt_irrefl, false_and]
    cases files path <;> rfl
  · cases valid : validPath path with
    | false => simp only [represents.invalid valid, Bool.not_false, Bool.true_or, ↓reduceIte, Option.bind_none]
    | true =>
      rw [represents.found path, if_neg (by simpa using empty)]
      cases files path with
      | none => rfl
      | some data =>
        simp only [Option.bind_some, Bool.or_eq_true, decide_eq_true_eq]
        by_cases inside : offset + size ≤ data.length
        · rw [if_neg (by omega), if_pos (by omega)]
        · rw [if_pos (by omega), if_neg (by omega)]

/-- One request keeps the representation, and the answers agree. -/
theorem serve (represents : Represents vfs files) (request : Request) :
    Represents (vfs.serve request).1 (files.serve request).1 ∧ (vfs.serve request).2 = (files.serve request).2 := by
  cases request with
  | createFile path data => exact represents.create path data
  | createFrom path source size =>
    rw [Vfs.serve, FileMap.serve, createFrom]
    by_cases accepted : (source = none → size = 0) ∧ size ≤ kMaxFile
    · have pointer : ¬ (source.isNone && size != 0) = true := by
        rw [Bool.and_eq_true, Option.isNone_iff_eq_none, bne_iff_ne, not_and, not_not]
        exact accepted.1
      rw [if_pos accepted, if_neg pointer, if_neg (Nat.not_lt.mpr accepted.2)]
      exact represents.create path _
    · rw [if_neg accepted]
      by_cases pointer : (source.isNone && size != 0) = true
      · rw [if_pos pointer]
        exact ⟨represents, rfl⟩
      · have large : kMaxFile < size := by
          rw [Bool.and_eq_true, Option.isNone_iff_eq_none, bne_iff_ne, not_and, not_not] at pointer
          exact Nat.not_le.mp fun small => accepted ⟨pointer, small⟩
        rw [if_neg pointer, if_pos large]
        exact ⟨represents, rfl⟩
  | writeFile path data => exact represents.write path data
  | readFile path => exact ⟨represents, congrArg Answer.content (represents.checked path id none rfl)⟩
  | readSlice path offset size => exact ⟨represents, congrArg Answer.content (represents.slice path offset size)⟩
  | pathExists path => exact ⟨represents, congrArg Answer.done (represents.checked path Option.isSome false rfl)⟩
  | fileSize path =>
    exact ⟨represents, congrArg Answer.size (represents.checked path (Option.map List.length) none rfl)⟩
  | removeFile path => exact represents.remove path
  | fileCount =>
    refine ⟨represents, congrArg Answer.count ?_⟩
    rw [fileCount, length_eq_ncard represents.distinct, represents.find]

end Represents

/-- **The file system is a map.** Every sequence of requests to a new `Vfs` is answered as the map
answers it.

Proof: the list of files represents the map, and every request keeps that and gets the same answer. -/
theorem transcript_map (requests : List Request) :
    transcript Vfs.serve {} requests = transcript FileMap.serve (fun _ => none) requests := by
  have each (vfs : Vfs) (files : FileMap) (request : Request) (represents : Represents vfs files) :=
    represents.serve request
  exact transcript_eq each requests ⟨rfl, List.nodup_nil, fun _ _ bound => by cases bound⟩

end Vfs

end SeriesxEmu
