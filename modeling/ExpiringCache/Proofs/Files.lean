import ExpiringCache.Proofs.Delivery

/-!
# Saving to a file, all or nothing

A path is followed through directories alone, so it leads to the same place in any two trees that
have the same directories (`FileSystem.SameDirectories`). A temporary file under a fresh name is no
directory, and no directory is replaced by a file. So nothing but the target changes when the
temporary file is renamed (`FileSystem.rename_temporary`), and nothing at all when it is removed
(`FileSystem.remove_temporary`).

`Cache.save_all_or_nothing` follows a save to a file through all points where it can fail, whatever
fresh name the temporary file has, in whatever order the entries are written, and wherever the disk
fails.
-/

namespace ExpiringCache

namespace FileSystem

variable {files files' : FileSystem}

/-! ## Following a path -/

/-- The same paths lead to directories, and the current directory is the same. -/
structure SameDirectories (files files' : FileSystem) : Prop where
  current : files.current = files'.current
  directory_iff : ∀ path,
    files.nodes.get? path = some .directory ↔ files'.nodes.get? path = some .directory

namespace SameDirectories

theorem symm (h : files.SameDirectories files') : files'.SameDirectories files :=
  ⟨h.current.symm, fun path => (h.directory_iff path).symm⟩

theorem enter (h : files.SameDirectories files') {place place' : List String} {name : String}
    (entered : files.enter place name = .ok place') : files'.enter place name = .ok place' := by
  fun_cases FileSystem.enter files place name with
  | case1 | case2 => exact entered
  | case3 place name notHere notUp found =>
    have found' := (h.directory_iff _).1 found
    simpa only [FileSystem.enter, notHere, notUp, found, found'] using entered
  | case4 | case5 => simp only [FileSystem.enter, *, reduceCtorEq] at entered

theorem walk (h : files.SameDirectories files') {names place : List String}
    (walked : files.walk names = .ok place) : files'.walk names = .ok place := by
  rw [FileSystem.walk] at walked ⊢
  -- The rest of a walk starts where its first step has led.
  generalize ([] : List String) = start at walked ⊢
  induction names generalizing start with
  | nil => exact walked
  | cons name names ih =>
    rw [List.foldlM_cons] at walked ⊢
    obtain ⟨next, entered, rest⟩ := bind_eq_ok_iff.1 walked
    exact bind_eq_ok_iff.2 ⟨next, h.enter entered, ih next rest⟩

theorem origin (h : files.SameDirectories files') (text : String) :
    files.origin text = files'.origin text := by
  rw [FileSystem.origin, FileSystem.origin, h.current]

theorem resolve (h : files.SameDirectories files') {text : String} {target : Target}
    (found : files.resolve text = .ok target) : files'.resolve text = .ok target := by
  rw [FileSystem.resolve] at found ⊢
  obtain ⟨_, checked, found⟩ := bind_eq_ok_iff.1 found
  refine bind_eq_ok_iff.2 ⟨_, checked, ?_⟩
  cases last : (namesOf text).getLast? with
  | none =>
    rw [last] at found
    exact found
  | some name =>
    rw [last] at found
    obtain ⟨place, walked, rest⟩ := bind_eq_ok_iff.1 found
    exact bind_eq_ok_iff.2 ⟨place, h.origin text ▸ h.walk walked, rest⟩

end SameDirectories

/-! ## Temporary files -/

theorem get?_fill (files : FileSystem) (path other : String) (content : List UInt8) :
    (files.fill path content).nodes.get? other =
      if path = other then some (.file content) else files.nodes.get? other :=
  Table.get?_insert _ _ _ _

theorem fill_sameDirectories {path : String} (h : files.nodes.get? path ≠ some .directory)
    (content : List UInt8) : files.SameDirectories (files.fill path content) := by
  refine ⟨rfl, fun other => ?_⟩
  rw [get?_fill]
  split
  · rename_i same
    rw [← same]
    exact iff_of_false h nofun
  · rfl

/-- To remove a temporary file is to undo its making. -/
theorem remove_temporary {temporary : String} (fresh : files.nodes.get? temporary = none)
    (content : List UInt8) : (files.fill temporary content).remove temporary = files := by
  refine congrArg (FileSystem.mk · files.current) (Table.ext fun path => ?_)
  rw [Table.get?_erase]
  split
  · rename_i same
    rw [← same, fresh]
  · rename_i other
    exact (get?_fill files temporary path content).trans (if_neg other)

theorem rename_eq_ok_iff {path text : String} :
    files.rename path text = .ok files' ↔ ∃ target content,
      files.resolve text = .ok (.entry target false) ∧
      files.nodes.get? (pathOf target) ≠ some .directory ∧
      files.nodes.get? path = some (.file content) ∧
      files' = (files.remove path).fill (pathOf target) content := by
  rw [rename, bind_eq_ok_iff]
  constructor
  · rintro ⟨target, resolved, rest⟩
    cases target with
    | directory => cases rest
    | entry target slash =>
      cases slash with
      | true => cases rest
      | false =>
        simp only [Bool.false_eq_true, if_false] at rest
        split at rest
        · cases rest
        · rename_i content found notDirectory
          exact ⟨target, content, resolved, notDirectory, found, (Except.ok.inj rest).symm⟩
        · cases rest
  · rintro ⟨target, content, resolved, notDirectory, found, rfl⟩
    refine ⟨_, resolved, ?_⟩
    simp only [Bool.false_eq_true, if_false]
    split
    · rename_i directory
      exact absurd directory notDirectory
    · rename_i content' found' _
      rw [found] at found'
      cases found'
      rfl
    · rename_i missing
      exact absurd found (missing content)

/-- A temporary file that is renamed leaves no trace; there has to be a place for it, which is not
that of a directory. -/
theorem rename_temporary {temporary text : String} (fresh : files.nodes.get? temporary = none)
    (content : List UInt8) :
    (files.fill temporary content).rename temporary text = .ok files' ↔ ∃ target,
      files.resolve text = .ok (.entry target false) ∧
      files.nodes.get? (pathOf target) ≠ some .directory ∧
      files' = files.fill (pathOf target) content := by
  have same : files.SameDirectories (files.fill temporary content) :=
    fill_sameDirectories (by rw [fresh]; exact nofun) content
  have filled : (files.fill temporary content).nodes.get? temporary = some (.file content) :=
    (get?_fill files temporary temporary content).trans (if_pos rfl)
  rw [rename_eq_ok_iff, remove_temporary fresh]
  constructor
  · rintro ⟨target, content', resolved, notDirectory, found, rfl⟩
    rw [filled] at found
    cases found
    exact ⟨target, same.symm.resolve resolved, fun e => notDirectory ((same.directory_iff _).1 e), rfl⟩
  · rintro ⟨target, resolved, notDirectory, rfl⟩
    exact ⟨target, content, same.resolve resolved,
      fun e => notDirectory ((same.directory_iff _).2 e), filled, rfl⟩

theorem locate_fill {text : String} {target : List String} (content : List UInt8)
    (resolved : files.resolve text = .ok (.entry target false))
    (notDirectory : files.nodes.get? (pathOf target) ≠ some .directory) :
    (files.fill (pathOf target) content).locate text = .ok (.file content) := by
  have still := (fill_sameDirectories notDirectory content).resolve resolved
  have filled : (files.fill (pathOf target) content).nodes.get? (pathOf target) =
    some (.file content) := (get?_fill files _ _ content).trans (if_pos rfl)
  rw [locate, still, ok_bind]
  simp only [filled]
  rfl

theorem read_fill {text : String} {target : List String} (content : List UInt8)
    (resolved : files.resolve text = .ok (.entry target false))
    (notDirectory : files.nodes.get? (pathOf target) ≠ some .directory) :
    (files.fill (pathOf target) content).read text = .ok content := by
  rw [read, locate_fill content resolved notDirectory]
  rfl

/-! ## Fresh names -/

theorem length_le_pathOf {names : List String} {name : String} (h : name ∈ names) :
    name.length ≤ (pathOf names).length := by
  have part : name.toList ∈ (names.map String.toList).intersperse "/".toList := by
    obtain ⟨i, hi⟩ := List.mem_iff_getElem?.1 (List.mem_map_of_mem h)
    exact List.mem_iff_getElem?.2 ⟨2 * i, (List.getElem?_intersperse_two_mul).trans hi⟩
  rw [pathOf, ← String.length_toList, ← String.length_toList, String.toList_intercalate]
  exact (List.sublist_flatten_of_mem part).length_le

theorem freshName_fresh (files : FileSystem) (directory : List String) :
    files.nodes.get? (pathOf (directory ++ [files.freshName])) = none := by
  have long : files.freshName.length ≤ (pathOf (directory ++ [files.freshName])).length :=
    length_le_pathOf (List.mem_append_right directory (List.mem_singleton_self _))
  refine Table.find?_eq_none_of_forall_ne fun entry member same => ?_
  have listed : entry.1.length ∈ files.nodes.entries.map fun entry => entry.1.length :=
    List.mem_map_of_mem member
  have short : entry.1.length ≤
      (files.nodes.entries.map fun entry => entry.1.length).foldl max 0 := by
    rw [List.foldl_max]
    exact le_trans (List.le_max?_getD_of_mem listed) (le_max_right _ _)
  rw [same] at short
  rw [freshName, String.length_ofList, List.length_cons, List.length_replicate] at long
  exact absurd (long.trans short) (Nat.not_succ_le_self _)

/-! ## Saves -/

/-- Writes entries to a file in the order given, from the moment on at which the temporary file has
been made. The sink is the file as it takes bytes. -/
def saveThrough (files : FileSystem) (path temporary : String) (order : List (String × Item))
    (sink : Sink) : Except Failure Unit × FileSystem :=
  let made := files.fill temporary []
  match Snapshot.saveInOrder order sink with
  | (.error failure, _) => (.error failure, made.remove temporary)
  | (.ok (), sink) =>
    match (made.fill temporary sink.taken).rename temporary path with
    | .error fault => (.error (.io fault), made.remove temporary)
    | .ok files => (.ok (), files)

/-- There is a place for a file at the path, and no directory is there. -/
def Accepts (files : FileSystem) (path : String) : Prop :=
  ∃ target, files.resolve path = .ok (.entry target false) ∧
    files.nodes.get? (pathOf target) ≠ some .directory

/-- A save of a table to a file has failed and left all files as they were, or it has put a snapshot
of the table at the path and left all else. -/
structure AllOrNothing (files : FileSystem) (path : String) (items : Table Item)
    (result : Except Failure Unit) (after : FileSystem) : Prop where
  nothing : ∀ failure, result = .error failure → after = files
  all : result = .ok () → ∃ target bytes,
    files.resolve path = .ok (.entry target false) ∧
    Snapshot.Spells bytes items ∧
    after.read path = .ok bytes ∧
    (∀ other, other ≠ pathOf target → after.nodes.get? other = files.nodes.get? other) ∧
    ∀ (cache : Cache) (now : Instant), cache.loadFile now after path =
      let (outcome, events, cache) := cache.perform now (.load (.ofBytes bytes))
      (outcome.result, events, cache)

variable {temporary : String} (fresh : files.nodes.get? temporary = none) (path : String)
include fresh

/-- A save ends in one of two ways. -/
theorem saveThrough_cases (order : List (String × Item)) (sink : Sink) :
    (¬ (files.Accepts path ∧ (Snapshot.saveInOrder order sink).1 = .ok ()) ∧
      ∃ failure, files.saveThrough path temporary order sink = (.error failure, files)) ∨
    ∃ target, files.resolve path = .ok (.entry target false) ∧
      files.nodes.get? (pathOf target) ≠ some .directory ∧
      (Snapshot.saveInOrder order sink).1 = .ok () ∧
      files.saveThrough path temporary order sink =
        (.ok (), files.fill (pathOf target) (Snapshot.saveInOrder order sink).2.taken) := by
  have twice (content : List UInt8) :
      (files.fill temporary []).fill temporary content = files.fill temporary content :=
    congrArg (FileSystem.mk · files.current)
      (Table.put_put files.nodes temporary (some _) (some _))
  rw [saveThrough, remove_temporary fresh]
  rcases Snapshot.saveInOrder order sink with ⟨_ | _, written⟩
  · exact .inl ⟨fun h => (nomatch h.2), _, rfl⟩
  · dsimp only
    rw [twice]
    cases renamed : (files.fill temporary written.taken).rename temporary path with
    | error fault =>
      refine .inl ⟨fun h => ?_, _, rfl⟩
      obtain ⟨⟨target, resolved, notDirectory⟩, -⟩ := h
      have placed := (rename_temporary fresh written.taken).2
        ⟨target, resolved, notDirectory, rfl⟩
      rw [renamed] at placed
      cases placed
    | ok after =>
      obtain ⟨target, resolved, notDirectory, rfl⟩ := (rename_temporary fresh _).1 renamed
      exact .inr ⟨target, resolved, notDirectory, rfl, rfl⟩

theorem saveThrough_allOrNothing {items : Table Item} {order : List (String × Item)}
    (ho : order.Perm items.entries) {sink : Sink} (empty : sink.taken = []) :
    files.AllOrNothing path items (files.saveThrough path temporary order sink).1
      (files.saveThrough path temporary order sink).2 := by
  obtain ⟨-, failure, failed⟩ | ⟨target, resolved, notDirectory, saved, done⟩ :=
    saveThrough_cases fresh path order sink
  · rw [failed]
    exact ⟨fun _ _ => rfl, nofun⟩
  · rw [done]
    refine ⟨nofun, fun _ => ⟨target, _, resolved, Snapshot.spells_of_saveInOrder ho empty saved,
      read_fill _ resolved notDirectory, fun other elsewhere => ?_, fun cache now => ?_⟩⟩
    · exact (get?_fill _ _ _ _).trans (if_neg elsewhere.symm)
    · rw [Cache.loadFile, locate_fill _ resolved notDirectory]

theorem read_saveThrough {order : List (String × Item)} {sink : Sink}
    (h : (files.saveThrough path temporary order sink).1 = .ok ()) :
    (files.saveThrough path temporary order sink).2.read path =
      .ok (Snapshot.saveInOrder order sink).2.taken := by
  obtain ⟨-, failure, failed⟩ | ⟨target, resolved, notDirectory, -, done⟩ :=
    saveThrough_cases fresh path order sink
  · rw [failed] at h
    cases h
  · rw [done]
    exact read_fill _ resolved notDirectory

theorem saveThrough_eq_ok_iff (order : List (String × Item)) (sink : Sink) :
    (files.saveThrough path temporary order sink).1 = .ok () ↔
      files.Accepts path ∧ (Snapshot.saveInOrder order sink).1 = .ok () := by
  obtain ⟨not, failure, failed⟩ | ⟨target, resolved, notDirectory, saved, done⟩ :=
    saveThrough_cases fresh path order sink
  · rw [failed]
    exact iff_of_false nofun not
  · rw [done]
    exact iff_of_true rfl ⟨⟨target, resolved, notDirectory⟩, saved⟩

end FileSystem

/-! ## Saves of a cache -/

namespace Snapshot

theorem save_eq_ok_iff {items : Table Item} :
    (save items .unlimited).1 = .ok () ↔ Encodable items := by
  rw [save_eq_saveInOrder]
  constructor
  · intro saved entry member
    cases found : unencodable? items.entries with
    | none => exact unencodable?_eq_none_iff.1 found entry member
    | some handle =>
      rw [saveInOrder_of_handle found] at saved
      cases saved
  · intro encodable
    have unheld := encodable.unencodable? (.refl _)
    obtain ⟨body, written⟩ := exists_writeBody unheld
    have whole : Sink.unlimited.Unfailing := Sink.unfailing_of_unbounded (by decide) rfl rfl
    rw [saveInOrder_of_body unheld written, whole]
    rfl

end Snapshot

namespace Cache

theorem saveFile_eq_saveThrough (cache : Cache) (now : Instant) {files : FileSystem} {path : String}
    {directory : List String} (found : files.parent path = .ok directory) :
    ((cache.saveFile now files path).1, (cache.saveFile now files path).2.2) =
      files.saveThrough path (FileSystem.pathOf (directory ++ [files.freshName]))
        cache.space.items.entries .unlimited := by
  have made : files.makeTemporary directory =
    (FileSystem.pathOf (directory ++ [files.freshName]),
      files.fill (FileSystem.pathOf (directory ++ [files.freshName])) []) := rfl
  rw [saveFile, found, FileSystem.saveThrough]
  simp only [made, perform, KeySpace.perform_save, Outcome.ofSave, Snapshot.save_eq_saveInOrder]
  rcases Snapshot.saveInOrder cache.space.items.entries .unlimited with ⟨_ | _, sink⟩
  · rfl
  · dsimp only [Except.map]
    cases FileSystem.rename _ _ path <;> rfl

theorem saveFile_of_no_parent (cache : Cache) (now : Instant) {files : FileSystem} {path : String}
    {fault : IoFault} (missing : files.parent path = .error fault) :
    cache.saveFile now files path = (.error (.io fault), [], files) := by
  rw [saveFile, missing]

/-- Without a directory for the temporary file nothing is done; with one it is made there, under a
fresh name. -/
theorem saveFile_cases (cache : Cache) (now : Instant) (files : FileSystem) (path : String) :
    ((¬ ∃ directory, files.parent path = .ok directory) ∧ ∃ failure,
      (cache.saveFile now files path).1 = .error failure ∧
      (cache.saveFile now files path).2.2 = files) ∨
    ((∃ directory, files.parent path = .ok directory) ∧ ∃ temporary,
      files.nodes.get? temporary = none ∧
      (cache.saveFile now files path).1 =
        (files.saveThrough path temporary cache.space.items.entries .unlimited).1 ∧
      (cache.saveFile now files path).2.2 =
        (files.saveThrough path temporary cache.space.items.entries .unlimited).2) := by
  cases found : files.parent path with
  | error fault =>
    have failed := cache.saveFile_of_no_parent now found
    exact .inl ⟨fun ⟨_, there⟩ => (nomatch there), _, congrArg Prod.fst failed,
      congrArg (fun saved => saved.2.2) failed⟩
  | ok directory =>
    have same := cache.saveFile_eq_saveThrough now found
    exact .inr ⟨⟨directory, rfl⟩, _, files.freshName_fresh directory, congrArg Prod.fst same,
      congrArg Prod.snd same⟩

theorem saveFile_allOrNothing (cache : Cache) (now : Instant) (files : FileSystem)
    (path : String) :
    files.AllOrNothing path cache.space.items (cache.saveFile now files path).1
      (cache.saveFile now files path).2.2 := by
  obtain ⟨-, _, result, after⟩ | ⟨-, temporary, fresh, result, after⟩ :=
    cache.saveFile_cases now files path
  · rw [result, after]
    exact ⟨fun _ _ => rfl, nofun⟩
  · rw [result, after]
    exact FileSystem.saveThrough_allOrNothing fresh path (.refl _) rfl

theorem saveFile_eq_ok_iff (cache : Cache) (now : Instant) (files : FileSystem) (path : String) :
    (cache.saveFile now files path).1 = .ok () ↔
      (∃ directory, files.parent path = .ok directory) ∧ files.Accepts path ∧
        Snapshot.Encodable cache.space.items := by
  rw [← Snapshot.save_eq_ok_iff, Snapshot.save_eq_saveInOrder]
  obtain ⟨none, _, result, -⟩ | ⟨some, temporary, fresh, result, -⟩ :=
    cache.saveFile_cases now files path
  · rw [result]
    exact iff_of_false nofun fun h => none h.1
  · rw [result, FileSystem.saveThrough_eq_ok_iff fresh]
    exact (and_iff_right some).symm

/-- A file that has been saved to holds the bytes that a save hands to a sink. -/
theorem read_saveFile {cache : Cache} {now : Instant} {files : FileSystem} {path : String}
    (h : (cache.saveFile now files path).1 = .ok ()) :
    (cache.saveFile now files path).2.2.read path =
      .ok (cache.perform now (.save .unlimited)).1.written := by
  have written : (cache.perform now (.save .unlimited)).1.written =
      (Snapshot.saveInOrder cache.space.items.entries .unlimited).2.taken := by
    rw [perform, KeySpace.perform_save, Outcome.ofSave, Snapshot.save_eq_saveInOrder]
  obtain ⟨-, _, result, -⟩ | ⟨-, temporary, fresh, result, after⟩ :=
    cache.saveFile_cases now files path
  · rw [result] at h
    cases h
  · rw [result] at h
    rw [after, written]
    exact FileSystem.read_saveThrough fresh path h

/-- A save to a file is all or nothing. If it fails, all files are as they were. If it succeeds, the
file at the path is a snapshot of the cache, the one that `save` writes, which any cache loads as it
loads those bytes, and all other files are as they were. The cache is left as it is.

It succeeds if there are a directory for the temporary file and a place for the file at the path,
and if the cache has no handles in it.

All or nothing it is under any fresh name of the temporary file, in any order of the entries, and
with any bounds of what can be written. -/
theorem save_all_or_nothing (cache : Cache) (now : Instant) (files : FileSystem) (path : String) :
    let result := (cache.saveFile now files path).1
    let after := (cache.saveFile now files path).2.2
    files.AllOrNothing path cache.space.items result after ∧
    (result = .ok () ↔ (∃ directory, files.parent path = .ok directory) ∧ files.Accepts path ∧
      Snapshot.Encodable cache.space.items) ∧
    (result = .ok () → after.read path = .ok (cache.perform now (.save .unlimited)).1.written) ∧
    (∀ sink, (cache.perform now (.save sink)).2.2 = cache) ∧
    (∀ directory, files.parent path = .ok directory → ∃ temporary,
      files.nodes.get? temporary = none ∧
      (result, after) = files.saveThrough path temporary cache.space.items.entries .unlimited) ∧
    ∀ temporary, files.nodes.get? temporary = none →
      ∀ order : List (String × Item), order.Perm cache.space.items.entries →
      ∀ sink, sink.taken = [] →
        files.AllOrNothing path cache.space.items
          (files.saveThrough path temporary order sink).1
          (files.saveThrough path temporary order sink).2 :=
  ⟨cache.saveFile_allOrNothing now files path, cache.saveFile_eq_ok_iff now files path,
    read_saveFile, fun sink => by rw [perform, KeySpace.perform_save],
    fun directory found => ⟨_, files.freshName_fresh directory,
      cache.saveFile_eq_saveThrough now found⟩,
    fun temporary fresh order ho sink empty =>
      FileSystem.saveThrough_allOrNothing fresh path ho empty⟩

/-- A cache with the table `Snapshot.nestedTable`. -/
def nestedCache : Cache := ⟨.single ⟨Snapshot.nestedTable, none, .zero⟩, ⟨none, none, []⟩, none⟩

/-- A file of two bytes, and a directory beside it, which is the current one. -/
def twoBytes : FileSystem := (FileSystem.within "d").fill "s" [1, 2]

/-- The file is replaced, and a save that the disk ends after ten bytes does not harm it. -/
theorem save_all_or_nothing_two_bytes :
    (nestedCache.saveFile (.nearest 0) twoBytes "/s").1 = .ok () ∧
    (∃ bytes, Snapshot.Spells bytes Snapshot.nestedTable ∧
      (nestedCache.saveFile (.nearest 0) twoBytes "/s").2.2.read "/s" = .ok bytes) ∧
    (twoBytes.saveThrough "../s" "t" Snapshot.nestedTable.entries.reverse tenBytes).1 =
      .error (.io .brokenPipe) ∧
    (twoBytes.saveThrough "../s" "t" Snapshot.nestedTable.entries.reverse tenBytes).2 =
      twoBytes := by
  obtain ⟨⟨-, all⟩, done, -⟩ := save_all_or_nothing nestedCache (.nearest 0) twoBytes "/s"
  obtain ⟨-, -, -, -, -, any⟩ := save_all_or_nothing nestedCache (.nearest 0) twoBytes "../s"
  have directory : ∃ directory, twoBytes.parent "/s" = .ok directory := ⟨[], by decide +kernel⟩
  have accepts : twoBytes.Accepts "/s" := ⟨["s"], by decide +kernel, by decide +kernel⟩
  have saved := done.2 ⟨directory, accepts, by decide⟩
  obtain ⟨target, bytes, -, spells, held, -⟩ := all saved
  have fresh : twoBytes.nodes.get? "t" = none := by decide +kernel
  have order : Snapshot.nestedTable.entries.reverse.Perm nestedCache.space.items.entries :=
    List.reverse_perm Snapshot.nestedTable.entries
  have failed : (twoBytes.saveThrough "../s" "t" Snapshot.nestedTable.entries.reverse tenBytes).1 =
    .error (.io .brokenPipe) := by decide +kernel
  exact ⟨saved, ⟨bytes, spells, held⟩, failed,
    (any "t" fresh _ order tenBytes rfl).nothing _ failed⟩

end Cache

end ExpiringCache
