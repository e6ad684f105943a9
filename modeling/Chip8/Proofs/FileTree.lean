import Chip8.FileTree

/-!
# Reading what was written

A path is followed from folder to folder, so all places above the one that it leads to are folders (`Reached`), and a
tree that holds the same folders leads it to the same place (`foldlM_follow_of_le`).

* (writing) opening and filling a file at such a place changes what stands there and nothing else, also not which
  folders there are (`find?_opened_of_ne`, `find?_fill_of_ne`);
* (reading) so what came into the file under a path is what is read under it (`stands_of_fill`), and a write ends in one
  of four ways (`written_write`);
* (failures) only a path with a null character in it is refused for that (`reason_of_read`, `reason_of_writable`).
-/

namespace Chip8.FileTree

/-! ### Entries -/

private theorem lookup_replace (entries : List (List String × Entry)) (place : List String) (new : Entry)
    (q : List String) :
    (entries.map fun e => if e.1 = place then (e.1, new) else e).lookup q
      = if q = place then (entries.lookup q).map fun _ => new else entries.lookup q := by
  induction entries with
  | nil => simp
  | cons e es ih =>
    obtain ⟨p, old⟩ := e
    by_cases hp : p = place
    · by_cases hq : q = p
      · subst hq
        simp [hp]
      · have hne : q ≠ place := fun h => hq (h.trans hp.symm)
        have hbeq : (q == p) = false := beq_false_of_ne hq
        simp only [List.map_cons, if_pos hp, List.lookup_cons, hbeq, ih]
    · by_cases hq : q = p
      · subst hq
        simp [hp]
      · have hbeq : (q == p) = false := beq_false_of_ne hq
        simp only [List.map_cons, if_neg hp, List.lookup_cons, hbeq, ih]

private theorem any_replace (entries : List (List String × Entry)) (place : List String) (new : Entry)
    (p : List String → Bool) :
    (entries.map fun e => if e.1 = place then (e.1, new) else e).any (fun e => p e.1) = entries.any fun e => p e.1 := by
  induction entries with
  | nil => rfl
  | cons e es ih =>
    rw [List.map_cons, List.any_cons, List.any_cons, ih]
    split <;> rfl

private theorem lookup_append_one (entries : List (List String × Entry)) (place : List String) (new : Entry)
    {q : List String} (hq : q ≠ place) : (entries ++ [(place, new)]).lookup q = entries.lookup q := by
  have hbeq : (q == place) = false := beq_false_of_ne hq
  rw [List.lookup_append, List.lookup_cons, hbeq]
  simp

variable {t t' : FileTree} {place : List String} {bytes : List UInt8}

theorem outside?_ne_file : outside? place ≠ some (.file bytes) := by
  unfold outside?
  split
  · nofun
  · nofun
  · nofun
  · split <;> nofun
  · split <;> nofun

theorem find?_of_lookup {e : Entry} (h : t.entries.lookup place = some e) : t.find? place = some e := by
  unfold find?
  rw [h]

/-- Only an entry makes a file. -/
theorem lookup_of_find?_file (h : t.find? place = some (.file bytes)) :
    t.entries.lookup place = some (.file bytes) := by
  unfold find? at h
  cases hl : t.entries.lookup place with
  | some e =>
    rw [hl] at h
    exact h
  | none =>
    rw [hl] at h
    dsimp only at h
    split at h
    · cases h
    · exact absurd h outside?_ne_file

theorem lookup_of_find?_none (h : t.find? place = none) : t.entries.lookup place = none := by
  unfold find? at h
  cases hl : t.entries.lookup place with
  | some e =>
    rw [hl] at h
    cases h
  | none => rfl

/-! ### Following a path -/

theorem expectFolder_ok_iff : t.expectFolder place = .ok () ↔ t.find? place = some .folder := by
  unfold expectFolder
  split
  · rename_i h
    simp [h]
  · rename_i h
    simp [h]
  · rename_i h
    simp [h]
  · rename_i h
    simp [h]

theorem follow_ok_iff {part : String} {next : List String} :
    t.follow place part = .ok next ↔
      t.find? place = some .folder ∧ part.utf8ByteSize ≤ maxPartLength ∧ next = enter place part := by
  unfold follow
  cases h : t.expectFolder place with
  | error reason =>
    have hnot : t.find? place ≠ some .folder := fun hf => by
      rw [expectFolder_ok_iff.2 hf] at h
      cases h
    simp [hnot]
  | ok u =>
    have hfolder := expectFolder_ok_iff.1 h
    by_cases hlong : maxPartLength < part.utf8ByteSize
    · simp only [if_pos hlong]
      constructor
      · nofun
      · rintro ⟨_, hle, _⟩
        omega
    · simp only [if_neg hlong, Except.ok.injEq]
      constructor
      · rintro rfl
        exact ⟨hfolder, by omega, rfl⟩
      · rintro ⟨_, _, rfl⟩
        rfl

/-- All places above a place are folders. The one above all others is not looked at. -/
def Reached (t : FileTree) (place : List String) : Prop :=
  ∀ q, q <+: place → q ≠ place → q ≠ [] → t.find? q = some .folder

theorem reached_start (path : String) : t.Reached (startOf path) := by
  intro q hq hne hnil
  unfold startOf at hq hne
  split at hq
  · rename_i hroot
    rw [if_pos hroot] at hne
    rcases List.prefix_cons_iff.1 hq with h | ⟨tail, rfl, htail⟩
    · exact absurd h hnil
    · exact absurd (by rw [List.prefix_nil.1 htail]) hne
  · exact absurd (List.prefix_nil.1 hq) hnil

private theorem Reached.append (h : t.Reached place) (hfolder : t.find? place = some .folder) (part : String) :
    t.Reached (place ++ [part]) := by
  intro q hq hne hnil
  rcases List.prefix_concat_iff.1 hq with h' | h'
  · exact absurd h' hne
  · by_cases hplace : q = place
    · exact hplace ▸ hfolder
    · exact h q h' hplace hnil

theorem Reached.enter (h : t.Reached place) (hfolder : t.find? place = some .folder) (part : String) :
    t.Reached (enter place part) := by
  unfold FileTree.enter
  split
  · exact h
  · split
    · unfold above
      split
      · exact h
      · split
        · exact h.append hfolder ".."
        · intro q hq hne hnil
          have hlonger : q ≠ place := by
            rintro rfl
            have hlength := hq.length_le
            rw [List.length_dropLast] at hlength
            have hpos := List.length_pos_iff.2 hnil
            omega
          exact h q (hq.trans (List.dropLast_prefix place)) hlonger hnil
    · exact h.append hfolder part

theorem reached_of_foldlM {parts : List String} {start place : List String} (hstart : t.Reached start)
    (h : parts.foldlM t.follow start = .ok place) : t.Reached place := by
  induction parts generalizing start with
  | nil =>
    injection h with h
    exact h ▸ hstart
  | cons part parts ih =>
    rw [List.foldlM_cons] at h
    cases hf : t.follow start part with
    | error reason =>
      rw [hf] at h
      cases h
    | ok next =>
      rw [hf] at h
      obtain ⟨hfolder, _, rfl⟩ := follow_ok_iff.1 hf
      exact ih (hstart.enter hfolder part) h

/-- With the same folders and perhaps more, a path leads to the same place. -/
theorem follow_of_le (hle : ∀ q, t.find? q = some .folder → t'.find? q = some .folder) {part : String}
    {next : List String} (h : t.follow place part = .ok next) : t'.follow place part = .ok next := by
  obtain ⟨hfolder, hpart, hnext⟩ := follow_ok_iff.1 h
  exact follow_ok_iff.2 ⟨hle place hfolder, hpart, hnext⟩

theorem foldlM_follow_of_le (hle : ∀ q, t.find? q = some .folder → t'.find? q = some .folder) {parts : List String}
    {start : List String} (h : parts.foldlM t.follow start = .ok place) :
    parts.foldlM t'.follow start = .ok place := by
  induction parts generalizing start with
  | nil => exact h
  | cons part parts ih =>
    rw [List.foldlM_cons] at h ⊢
    cases hf : t.follow start part with
    | error reason =>
      rw [hf] at h
      cases h
    | ok next =>
      rw [hf] at h
      rw [follow_of_le hle hf]
      exact ih h

/-! ### Writing -/

theorem find?_fill_of_ne {q : List String} (hq : q ≠ place) : (t.fill place bytes).find? q = t.find? q := by
  unfold find? fill
  dsimp only
  rw [lookup_replace, if_neg hq, any_replace]

theorem find?_fill {old : List UInt8} (h : t.find? place = some (.file old)) :
    (t.fill place bytes).find? place = some (.file bytes) := by
  refine find?_of_lookup ?_
  unfold fill
  dsimp only
  rw [lookup_replace, if_pos rfl, lookup_of_find?_file h]
  rfl

private theorem find?_append_of_ne {q : List String} (hreached : t.Reached place) (hq : q ≠ place) :
    (⟨t.entries ++ [(place, .file bytes)]⟩ : FileTree).find? q = t.find? q := by
  unfold find?
  dsimp only
  rw [lookup_append_one _ _ _ hq]
  cases hl : t.entries.lookup q with
  | some e => rfl
  | none =>
    -- the new entry makes a folder of every place above it, and all of these are folders already
    dsimp only
    rw [List.any_append, List.any_cons, List.any_nil, Bool.or_false]
    by_cases hpre : q <+: place
    · have hfolder : t.find? q = some .folder := by
        by_cases hnil : q = []
        · unfold find?
          rw [hl, hnil]
          dsimp only
          split <;> rfl
        · exact hreached q hpre hq hnil
      have hbefore : (if (t.entries.any fun e => q.isPrefixOf e.1) = true then some Entry.folder else outside? q)
          = some .folder := by
        unfold find? at hfolder
        rw [hl] at hfolder
        exact hfolder
      rw [hbefore, List.isPrefixOf_iff_prefix.2 hpre, Bool.or_true, if_pos rfl]
    · have hnot : q.isPrefixOf place = false := by
        rw [Bool.eq_false_iff]
        exact fun h => hpre (List.isPrefixOf_iff_prefix.1 h)
      rw [hnot, Bool.or_false]

/-- Opening changes nothing but what stands at the place itself. -/
theorem find?_opened_of_ne {q : List String} (hreached : t.Reached place) (hq : q ≠ place) :
    (t.opened place).find? q = t.find? q := by
  unfold opened
  split
  · exact find?_fill_of_ne hq
  · exact find?_append_of_ne hreached hq
  · rfl
  · rfl

theorem opened_of_device {d : Device} (h : t.find? place = some (.device d)) : t.opened place = t := by
  unfold opened
  rw [h]

/-- A file is empty when it has been opened. -/
theorem find?_opened (hfolder : t.find? place ≠ some .folder) (hdevice : ∀ d, t.find? place ≠ some (.device d)) :
    (t.opened place).find? place = some (.file []) := by
  unfold opened
  split
  · rename_i h
    exact find?_fill h
  · rename_i h
    refine find?_of_lookup ?_
    dsimp only
    rw [List.lookup_append, lookup_of_find?_none h]
    simp
  · rename_i h
    exact absurd h hfolder
  · rename_i d h
    exact absurd h (hdevice d)

/-- The target of a path is the place that the path leads to. -/
theorem target_ok {path : String} (h : t.target path = .ok place) :
    checkPath path = .ok () ∧ namesFolder path = false ∧
      (partsOf path).foldlM t.follow (startOf path) = .ok place := by
  unfold target at h
  cases hcheck : checkPath path with
  | error reason =>
    rw [hcheck] at h
    cases h
  | ok u =>
    rw [hcheck] at h
    cases hlast : (partsOf path).getLast? with
    | none =>
      rw [hlast] at h
      cases h
    | some last =>
      obtain ⟨parents, hparts⟩ := List.getLast?_eq_some_iff.1 hlast
      rw [hlast, hparts, List.dropLast_concat] at h
      rw [hparts, List.foldlM_append]
      change (parents.foldlM t.follow (startOf path) >>= fun parent => t.expectFolder parent >>= fun _ =>
        if namesFolder path then .error .isFolder else t.follow parent last) = .ok place at h
      cases hparent : parents.foldlM t.follow (startOf path) with
      | error reason =>
        rw [hparent] at h
        cases h
      | ok parent =>
        rw [hparent] at h
        change (t.expectFolder parent >>= fun _ =>
          if namesFolder path then .error .isFolder else t.follow parent last) = .ok place at h
        cases hfolder : t.expectFolder parent with
        | error reason =>
          rw [hfolder] at h
          cases h
        | ok u =>
          rw [hfolder] at h
          change (if namesFolder path then .error .isFolder else t.follow parent last) = .ok place at h
          split at h
          · cases h
          · rename_i hname
            refine ⟨rfl, Bool.eq_false_iff.2 hname, ?_⟩
            show (t.follow parent last >>= fun next => List.foldlM t.follow next []) = _
            rw [h]
            rfl

/-- Bytes stand under a path, and all else is as in another tree. -/
structure Stands (before t : FileTree) (path : String) (place : List String) (bytes : List UInt8) : Prop where
  read : t.read path = .ok bytes
  others : ∀ q, q ≠ place → t.find? q = before.find? q

/-- What can be opened for writing is no folder, and the path leads there. -/
theorem writable_ok {disk : Disk} {path : String} (h : t.writable disk path = .ok place) :
    t.target path = .ok place ∧ t.find? place ≠ some .folder := by
  unfold writable at h
  split at h
  · cases h
  · rename_i target htarget
    split at h
    · cases h
    · rename_i hfolder
      split at h
      · cases h
      · obtain rfl : target = place := Except.ok.inj h
        exact ⟨htarget, hfolder⟩

/-- The bytes that come into a file that was opened are read under its path. -/
theorem stands_of_fill {path : String} (htarget : t.target path = .ok place) (hfolder : t.find? place ≠ some .folder)
    (hdevice : ∀ d, t.find? place ≠ some (.device d)) (bytes : List UInt8) :
    Stands t ((t.opened place).fill place bytes) path place bytes := by
  obtain ⟨hcheck, hname, hfollow⟩ := target_ok htarget
  have hreached : t.Reached place := reached_of_foldlM (reached_start path) hfollow
  have hothers : ∀ q, q ≠ place → ((t.opened place).fill place bytes).find? q = t.find? q := fun q hq =>
    (find?_fill_of_ne hq).trans (find?_opened_of_ne hreached hq)
  have hfile : ((t.opened place).fill place bytes).find? place = some (.file bytes) :=
    find?_fill (find?_opened hfolder hdevice)
  refine ⟨?_, hothers⟩
  -- no folder was written over, so the path is followed as before
  have hle : ∀ q, t.find? q = some .folder → ((t.opened place).fill place bytes).find? q = some .folder := by
    intro q hq
    have hne : q ≠ place := fun he => hfolder (he ▸ hq)
    rw [hothers q hne, hq]
  have hcontents : ((t.opened place).fill place bytes).contents path = .ok bytes := by
    unfold contents
    rw [hcheck, foldlM_follow_of_le hle hfollow]
    simp only [bind, Except.bind, hfile, hname]
    rfl
  unfold read
  rw [hcontents]
  rfl

/-- How a write ends, and why. -/
inductive Written (t : FileTree) (disk : Disk) (path : String) (bytes : List UInt8) :
    Except WriteError Unit × FileTree → Prop
  /-- Nothing is opened, and nothing has changed. -/
  | unopened {e : WriteError} (h : t.writable disk path = .error e) : Written t disk path bytes (.error e, t)
  /-- A device keeps nothing. One that is full takes nothing either. -/
  | device {place : List String} {d : Device} (h : t.writable disk path = .ok place)
    (hd : t.find? place = some (.device d)) (htakes : d = .null ∨ bytes = []) : Written t disk path bytes (.ok (), t)
  | fullDevice {place : List String} (h : t.writable disk path = .ok place)
    (hd : t.find? place = some (.device .full)) (hne : bytes ≠ []) :
    Written t disk path bytes (.error (.file ⟨path, .noSpace⟩), t)
  /-- A file holds all bytes. -/
  | whole {place : List String} {t' : FileTree} (h : t.writable disk path = .ok place)
    (hd : ∀ d, t.find? place ≠ some (.device d)) (hstops : disk.stops place bytes = none)
    (hstands : Stands t t' path place bytes) : Written t disk path bytes (.ok (), t')
  /-- A file has lost its old bytes and holds a part of the new ones. -/
  | part {place : List String} {t' : FileTree} {taken : Nat} {e : SystemError} (h : t.writable disk path = .ok place)
    (hd : ∀ d, t.find? place ≠ some (.device d)) (hstops : disk.stops place bytes = some (taken, e))
    (hstands : Stands t t' path place (bytes.take taken)) : Written t disk path bytes (.error (.stopped e), t')

theorem written_write (t : FileTree) (disk : Disk) (path : String) (bytes : List UInt8) :
    Written t disk path bytes (t.write disk path bytes) := by
  unfold write
  cases hopen : t.writable disk path with
  | error e => exact .unopened hopen
  | ok place =>
    obtain ⟨htarget, hfolder⟩ := writable_ok hopen
    dsimp only
    by_cases hdevice : ∃ d, t.find? place = some (.device d)
    · obtain ⟨d, hd⟩ := hdevice
      rw [opened_of_device hd]
      unfold put
      rw [hd]
      cases d with
      | null => exact .device hopen hd (Or.inl rfl)
      | full =>
        dsimp only
        by_cases hempty : bytes.isEmpty = true
        · rw [if_pos hempty]
          exact .device hopen hd (Or.inr (List.isEmpty_iff.1 hempty))
        · rw [if_neg hempty]
          exact .fullDevice hopen hd fun he => hempty (List.isEmpty_iff.2 he)
    · have hd : ∀ d, t.find? place ≠ some (.device d) := fun d hd => hdevice ⟨d, hd⟩
      unfold put
      rw [find?_opened hfolder hd]
      dsimp only
      cases hstops : disk.stops place bytes with
      | none => exact .whole hopen hd hstops (stands_of_fill htarget hfolder hd bytes)
      | some stop => exact .part hopen hd hstops (stands_of_fill htarget hfolder hd (bytes.take stop.1))

/-! ### Failures -/

/-- Something that does not fail for a null character. -/
def NotNull {α : Type} : Except FileError.Reason α → Prop
  | .ok _ => True
  | .error reason => reason ≠ .nullCharacter

theorem NotNull.bind {α β : Type} {r : Except FileError.Reason α} {f : α → Except FileError.Reason β}
    (h : NotNull r) (hf : ∀ a, NotNull (f a)) : NotNull (r >>= f) := by
  cases r with
  | error reason => exact h
  | ok a => exact hf a

theorem notNull_checkPath {path : String} (hpath : path.contains '\x00' = false) : NotNull (checkPath path) := by
  unfold checkPath
  rw [hpath]
  split
  · contradiction
  · split
    · nofun
    · split
      · nofun
      · trivial

theorem notNull_expectFolder (t : FileTree) (place : List String) : NotNull (t.expectFolder place) := by
  unfold expectFolder
  split
  · nofun
  · nofun
  · nofun
  · trivial

theorem notNull_follow (t : FileTree) (place : List String) (part : String) : NotNull (t.follow place part) := by
  have hfolder := t.notNull_expectFolder place
  unfold follow
  split
  · rename_i reason h
    rw [h] at hfolder
    exact hfolder
  · split
    · nofun
    · trivial

theorem notNull_foldlM (t : FileTree) (parts : List String) (start : List String) :
    NotNull (parts.foldlM t.follow start) := by
  induction parts generalizing start with
  | nil => trivial
  | cons part parts ih =>
    rw [List.foldlM_cons]
    exact (t.notNull_follow start part).bind ih

theorem notNull_contents (t : FileTree) {path : String} (hpath : path.contains '\x00' = false) :
    NotNull (t.contents path) := by
  unfold contents
  refine (notNull_checkPath hpath).bind fun _ => (t.notNull_foldlM _ _).bind fun place => ?_
  split
  · nofun
  · nofun
  · split
    · nofun
    · trivial
  · split
    · nofun
    · trivial

theorem notNull_target (t : FileTree) {path : String} (hpath : path.contains '\x00' = false) :
    NotNull (t.target path) := by
  unfold target
  refine (notNull_checkPath hpath).bind fun _ => ?_
  split
  · nofun
  · refine (t.notNull_foldlM _ _).bind fun parent => (t.notNull_expectFolder parent).bind fun _ => ?_
    split
    · nofun
    · exact t.notNull_follow _ _

private theorem reason_of_mapError {α : Type} {path : String} {r : Except FileError.Reason α} (hr : NotNull r)
    {e : FileError} (h : r.mapError (fun reason => ⟨path, reason⟩) = .error e) : e.reason ≠ .nullCharacter := by
  cases r with
  | ok a => cases h
  | error reason =>
    injection h with h
    exact h ▸ hr

theorem reason_of_read {path : String} (hpath : path.contains '\x00' = false) {e : FileError}
    (h : t.read path = .error e) : e.reason ≠ .nullCharacter :=
  reason_of_mapError (t.notNull_contents hpath) h

theorem reason_of_writable {disk : Disk} {path : String} (hpath : path.contains '\x00' = false) {e : FileError}
    (h : t.writable disk path = .error (.file e)) : e.reason ≠ .nullCharacter := by
  have htarget := t.notNull_target hpath
  unfold writable at h
  split at h
  · rename_i reason hreason
    obtain rfl : ⟨path, reason⟩ = e := WriteError.file.inj (Except.error.inj h)
    rw [hreason] at htarget
    exact htarget
  · split at h
    · obtain rfl : ⟨path, .isFolder⟩ = e := WriteError.file.inj (Except.error.inj h)
      nofun
    · split at h <;> cases h

end Chip8.FileTree
