import Mathlib
import Chip8.CommandLine.Session
import Chip8.Proofs.Assembly.Acceptance
import Chip8.Proofs.FileTree
import Chip8.Proofs.Text.Utf8
import Chip8.VirtualClock

/-!
# Assembling at the command line

A session that is asked to assemble a source into a target writes the image of the source under the target and nothing
else (`Writes`), or it says why it does not and leaves all files alone (`Declines`). There are two exceptions. A disk
that stops while it takes the image leaves a part of it under the target, where nothing is left of what was there
(`Breaks`). And a source that is no text makes the session fail without a word, but leaves all files alone.

* (arguments) two names of files behind the option are what it is given (`complete_assemble`);
* (writing) how the session ends follows from how the write ends (`writeImage_cases`);
* (cases) each step either goes on or ends the session, and the files change in the last one alone
  (`assembleFile_cases`).
-/

namespace Chip8.CommandLine

open Text

/-- A name that is taken for that of a file, not for an option, and that can be one. -/
structure NamesFile (name : String) : Prop where
  plain : Token.ofArgument name.toList = .ok (.plain name)
  noNull : name.contains '\x00' = false

/-! ### The arguments -/

theorem NamesFile.ne_dashes {name : String} (h : NamesFile name) : name ≠ "--" := by
  rintro rfl
  have hdashes : (Token.ofArgument "--".toList).toOption = none := by decide +kernel
  rw [h.plain] at hdashes
  cases hdashes

theorem ofArguments_assemble {source target : String} (hsource : NamesFile source) (htarget : NamesFile target) :
    Request.ofArguments ["--assemble", source, target]
      = .ok (.run { Options.default with assemble := some (source, target) }) := by
  have hoption : Token.ofArgument "--assemble".toList = .ok (.long .assemble none) := by decide +kernel
  have htokens : Token.ofArguments ["--assemble", source, target]
      = .ok [.long .assemble none, .plain source, .plain target] := by
    unfold Token.ofArguments
    rw [if_neg (by decide), hoption]
    unfold Token.ofArguments
    rw [if_neg hsource.ne_dashes, hsource.plain]
    unfold Token.ofArguments
    rw [if_neg htarget.ne_dashes, htarget.plain]
    rfl
  unfold Request.ofArguments
  rw [htokens]
  rfl

variable {τ κ : Type} [ClockTime τ]

theorem complete_assemble (env : Surroundings τ κ) (files : FileTree) {source target : String}
    (hsource : NamesFile source) (htarget : NamesFile target) (input : List Char) (interrupted : Bool) :
    Session.complete env files ["--assemble", source, target] input interrupted
      = (Session.start files).assembleFile env.disk source target false := by
  unfold Session.complete Session.launch
  rw [ofArguments_assemble hsource htarget]
  rfl

/-! ### How a session ends -/

/-- What a session says when it does not assemble a source into a target, and why it does not. -/
inductive Refusal (files : FileTree) (disk : Disk) (source target : String) : List String → Prop
  | unreadable {e : FileError} : files.read source = .error e →
      Refusal files disk source target ["Could not open file", s!"Cause: {e.message}"]
  | refused {text : List Char} {e : AssemblyError} : files.read source = .ok (text.flatMap String.utf8EncodeChar) →
      assemble (unifyNewlines text) programStart = .error e → e.problem.IsRefusal →
      Refusal files disk source target [s!"Assembly error: {e.message}"]
  | unwritable {text : List Char} {a : Assembled} {e : WriteError} :
      files.read source = .ok (text.flatMap String.utf8EncodeChar) →
      assemble (unifyNewlines text) programStart = .ok a → files.writable disk target = .error e →
      Refusal files disk source target ["Could not open file", s!"Cause: {e.message}"]
  /-- The target is a device without room. -/
  | full {text : List Char} {a : Assembled} {place : List String} :
      files.read source = .ok (text.flatMap String.utf8EncodeChar) →
      assemble (unifyNewlines text) programStart = .ok a → files.writable disk target = .ok place →
      files.find? place = some (.device .full) → a.image ≠ [] →
      Refusal files disk source target ["Could not open file", "Cause: [Errno 28] No space left on device"]

/-- A session that reports lines and has done nothing else. -/
structure Declines (files : FileTree) (lines : List String) (s : Session) : Prop where
  files : s.files = files
  output : s.output = ""
  errors : s.errors = lines.foldl (fun text line => text ++ line ++ "\n") ""
  spoken : s.errors ≠ ""

/-- A session that has put the image of a text under a target and changed nothing else. A device keeps nothing. -/
structure Writes (files : FileTree) (disk : Disk) (target : String) (text : List Char) (s : Session) : Prop where
  image : ∃ a place, assemble (unifyNewlines text) programStart = .ok a ∧ files.writable disk target = .ok place ∧
    (disk.stops place a.image = none ∧ FileTree.Stands files s.files target place a.image ∨
      s.files = files ∧ ∃ d, files.find? place = some (.device d))
  errors : s.errors = ""

/-- A session in which a file was opened under a target, lost what it held, and took only a part of the image of a text.
It reports what the system said, and nothing else has changed. -/
structure Breaks (files : FileTree) (disk : Disk) (target : String) (text : List Char) (s : Session) : Prop where
  image : ∃ a place taken e, assemble (unifyNewlines text) programStart = .ok a ∧
    files.writable disk target = .ok place ∧ (∀ d, files.find? place ≠ some (.device d)) ∧
    disk.stops place a.image = some (taken, e) ∧ FileTree.Stands files s.files target place (a.image.take taken) ∧
    s.errors = ["Could not open file", s!"Cause: {e.message}"].foldl (fun text line => text ++ line ++ "\n") ""
  output : s.output = ""

theorem declines_report (files : FileTree) (line : String) (lines : List String) :
    Declines files (line :: lines) ((Session.start files).report (line :: lines)) := by
  have hgrows : ∀ (later : List String) (text : String), text ≠ "" →
      later.foldl (fun text line => text ++ line ++ "\n") text ≠ "" := by
    intro later
    induction later with
    | nil => exact fun _ h => h
    | cons l ls ih => exact fun text _ => ih _ (by simp)
  exact ⟨rfl, rfl, rfl, hgrows lines ("" ++ line ++ "\n") (by simp)⟩

section
variable {files : FileTree} {disk : Disk} {source target : String}

theorem Refusal.declines {lines : List String} (h : Refusal files disk source target lines) :
    Declines files lines ((Session.start files).report lines) := by
  cases h with
  | unreadable | refused | unwritable | full => exact declines_report files _ _

theorem cannotOpen_eq (s : Session) {e : FileError} (h : e.reason ≠ .nullCharacter) :
    s.cannotOpen e = (.exit 1, s.report ["Could not open file", s!"Cause: {e.message}"]) := by
  unfold Session.cannotOpen
  rw [if_neg h]
  rfl

theorem cannotWrite_eq (s : Session) {e : WriteError} (h : ∀ e', e = .file e' → e'.reason ≠ .nullCharacter) :
    s.cannotWrite e = (.exit 1, s.report ["Could not open file", s!"Cause: {e.message}"]) := by
  cases e with
  | file e => exact cannotOpen_eq s (h e rfl)
  | refused | stopped => rfl

/-- How a session ends that has an image to write. -/
theorem writeImage_cases (disk : Disk) (hnull : target.contains '\x00' = false) {text : List Char}
    (hread : files.read source = .ok (text.flatMap String.utf8EncodeChar)) {a : Assembled}
    (ha : assemble (unifyNewlines text) programStart = .ok a) :
    let r := (Session.start files).writeImage disk source target a.image
    (∃ lines, Refusal files disk source target lines ∧ r = (.exit 1, (Session.start files).report lines)) ∨
    (r.1 = .exit 0 ∧ Writes files disk target text r.2) ∨
    (r.1 = .exit 1 ∧ Breaks files disk target text r.2) := by
  intro r
  obtain ⟨r', hr⟩ : ∃ r', r = r' := ⟨r, rfl⟩
  have hwritten := files.written_write disk target a.image
  rw [hr]
  change (Session.start files).writeImage disk source target a.image = r' at hr
  unfold Session.writeImage at hr
  rw [show (Session.start files).files = files from rfl] at hr
  generalize files.write disk target a.image = w at hwritten hr
  cases hwritten with
  | @unopened e h =>
    have hreason : ∀ e', e = .file e' → e'.reason ≠ .nullCharacter := fun e' he =>
      FileTree.reason_of_writable hnull (he ▸ h)
    dsimp only at hr
    rw [cannotWrite_eq _ hreason] at hr
    exact Or.inl ⟨_, .unwritable hread ha h, hr.symm⟩
  | device h hd =>
    subst hr
    exact Or.inr (Or.inl ⟨rfl, ⟨a, _, ha, h, Or.inr ⟨rfl, _, hd⟩⟩, rfl⟩)
  | fullDevice h hd hne =>
    subst hr
    exact Or.inl ⟨_, .full hread ha h hd hne, rfl⟩
  | whole h hd hstops hstands =>
    subst hr
    exact Or.inr (Or.inl ⟨rfl, ⟨a, _, ha, h, Or.inl ⟨hstops, hstands⟩⟩, rfl⟩)
  | part h hd hstops hstands =>
    subst hr
    exact Or.inr (Or.inr ⟨rfl, ⟨a, _, _, _, ha, h, hd, hstops, hstands, rfl⟩, rfl⟩)

/-- Assembling a file ends with a source that is no text, with a refusal, with the image written, or with a part of
it. -/
theorem assembleFile_cases (files : FileTree) (disk : Disk) {source target : String} (hsource : NamesFile source)
    (htarget : NamesFile target) :
    let r := (Session.start files).assembleFile disk source target false
    (∃ bytes e, files.read source = .ok bytes ∧ decodeUtf8 bytes = .error e ∧
      r = (.failure (.text e), Session.start files)) ∨
    (∃ lines, Refusal files disk source target lines ∧ r = (.exit 1, (Session.start files).report lines)) ∨
    ∃ text, files.read source = .ok (text.flatMap String.utf8EncodeChar) ∧
      (r.1 = .exit 0 ∧ Writes files disk target text r.2 ∨ r.1 = .exit 1 ∧ Breaks files disk target text r.2) := by
  intro r
  obtain ⟨r', hr⟩ : ∃ r', r = r' := ⟨r, rfl⟩
  have hfiles : (Session.start files).files = files := rfl
  rw [hr]
  change (Session.start files).assembleFile disk source target false = r' at hr
  unfold Session.assembleFile at hr
  rw [hfiles] at hr
  cases hread : files.read source with
  | error e =>
    rw [hread] at hr
    dsimp only at hr
    rw [cannotOpen_eq _ (FileTree.reason_of_read hsource.noNull hread)] at hr
    exact Or.inr (Or.inl ⟨_, .unreadable hread, hr.symm⟩)
  | ok bytes =>
    rw [hread] at hr
    dsimp only at hr
    cases htext : decodeUtf8 bytes with
    | error e =>
      rw [htext] at hr
      exact Or.inl ⟨bytes, e, rfl, htext, hr.symm⟩
    | ok text =>
      have hbytes : bytes = text.flatMap String.utf8EncodeChar := decodeUtf8_ok_iff.1 htext
      rw [hbytes] at hread
      rw [htext] at hr
      dsimp only at hr
      cases ha : assemble (unifyNewlines text) programStart with
      | error e =>
        have hmemory : Assembly.Fillable (unifyNewlines text) programStart :=
          Assembly.fillable_of_nonneg (Int.natCast_nonneg _)
        obtain ⟨_, _, _, hrefused⟩ := Assembly.assemble_error hmemory ha
        rw [ha] at hr
        exact Or.inr (Or.inl ⟨_, .refused hread ha hrefused, hr.symm⟩)
      | ok a =>
        rw [ha] at hr
        change (Session.start files).writeImage disk source target a.image = r' at hr
        have hcases := writeImage_cases disk htarget.noNull hread ha
        rw [hr] at hcases
        rcases hcases with hrefusal | hend
        · exact Or.inr (Or.inl hrefusal)
        · exact Or.inr (Or.inr ⟨text, hbytes ▸ rfl, hend⟩)

end

/-- A session that is asked to assemble a source into a target, whatever files there are and however the disk behaves.
If the source is a text, or cannot be read, the session ends with 0 and has put under the target exactly the image of
the text, with all line ends made one; or it ends with 1, has said why, and all files are as they were; or it ends
with 1 and has said why, but the disk has stopped while it took the image: then a part of it stands under the target,
and only the other files are as they were. If the source is no text, the session fails without a word, and all files are
as they were. -/
theorem assembling_writes_the_image_or_says_why (env : Surroundings τ κ) (files : FileTree) {source target : String}
    (hsource : NamesFile source) (htarget : NamesFile target) (input : List Char) (interrupted : Bool) :
    let r := Session.complete env files ["--assemble", source, target] input interrupted
    ((∀ bytes, files.read source = .ok bytes → ∃ text : List Char, bytes = text.flatMap String.utf8EncodeChar) →
      (r.1 = .exit 0 ∧ ∃ text, files.read source = .ok (text.flatMap String.utf8EncodeChar) ∧
        Writes files env.disk target text r.2) ∨
      (r.1 = .exit 1 ∧ ∃ lines, Refusal files env.disk source target lines ∧ Declines files lines r.2) ∨
      (r.1 = .exit 1 ∧ ∃ text, files.read source = .ok (text.flatMap String.utf8EncodeChar) ∧
        Breaks files env.disk target text r.2)) ∧
    ∀ bytes, files.read source = .ok bytes → (∀ text : List Char, bytes ≠ text.flatMap String.utf8EncodeChar) →
      ∃ e, decodeUtf8 bytes = .error e ∧ r = (.failure (.text e), Session.start files) := by
  intro r
  have hr : r = (Session.start files).assembleFile env.disk source target false :=
    complete_assemble env files hsource htarget input interrupted
  rw [hr]
  rcases assembleFile_cases files env.disk hsource htarget with
    ⟨bytes, e, hread, herror, hend⟩ | ⟨lines, hrefusal, hend⟩ | ⟨text, hread, hend⟩
  · have hnone : ∀ text : List Char, bytes ≠ text.flatMap String.utf8EncodeChar := by
      intro text htext
      rw [decodeUtf8_ok_iff.2 htext] at herror
      cases herror
    refine ⟨fun htext => ?_, fun bytes' hread' _ => ?_⟩
    · obtain ⟨text, h⟩ := htext bytes hread
      exact absurd h (hnone text)
    · obtain rfl : bytes = bytes' := Except.ok.inj (hread.symm.trans hread')
      exact ⟨e, herror, hend⟩
  · rw [hend]
    refine ⟨fun _ => Or.inr (Or.inl ⟨rfl, lines, hrefusal, hrefusal.declines⟩), fun bytes hread hnone => ?_⟩
    -- what is refused is a text, or it cannot be read
    cases hrefusal with
    | unreadable h =>
      rw [hread] at h
      cases h
    | refused h | unwritable h | full h => exact absurd (Except.ok.inj (hread.symm.trans h)) (hnone _)
  · refine ⟨fun _ => ?_, fun bytes hread' hnone => ?_⟩
    · rcases hend with ⟨hexit, hwrites⟩ | ⟨hexit, hbreaks⟩
      · exact Or.inl ⟨hexit, text, hread, hwrites⟩
      · exact Or.inr (Or.inr ⟨hexit, text, hread, hbreaks⟩)
    · exact absurd (Except.ok.inj (hread'.symm.trans hread)) (hnone text)

/-- Surroundings without dice, time and windows. -/
def Surroundings.bare (disk : Disk) : Surroundings Number.Quantity VirtualClock where
  dice := .ofList []
  clock := .start .zero .zero []
  read := VirtualClock.read
  sleep := VirtualClock.sleep
  events := none
  passes := 0
  disk := disk

/-- A disk that has room for no byte. -/
def withoutRoom : Disk where
  refuses _ := none
  stops _ bytes := if bytes.isEmpty then none else some (0, ⟨28, "No space left on device"⟩)

/-- A source of one instruction, whose line end has two characters, and an older target. -/
def sourceAndTarget : FileTree :=
  ⟨[(["a"], .file [0x43, 0x4C, 0x53, 0x0D, 0x0A]), (["o"], .file [1])]⟩

/-- A source that starts no character, and an older target. -/
def malformedSource : FileTree :=
  ⟨[(["a"], .file [0xFF]), (["o"], .file [1])]⟩

private theorem namesFile_a : NamesFile "a" := ⟨by decide +kernel, by cbv⟩

private theorem namesFile_o : NamesFile "o" := ⟨by decide +kernel, by cbv⟩

private theorem read_source : sourceAndTarget.read "a" = .ok ("CLS\r\n".toList.flatMap String.utf8EncodeChar) := by
  have hread : sourceAndTarget.read "a" = .ok [0x43, 0x4C, 0x53, 0x0D, 0x0A] := by cbv
  have htext : decodeUtf8 [0x43, 0x4C, 0x53, 0x0D, 0x0A] = .ok "CLS\r\n".toList := by decide +kernel
  rw [hread, decodeUtf8_ok_iff.1 htext]

private theorem image_of_source {text : List Char}
    (h : sourceAndTarget.read "a" = .ok (text.flatMap String.utf8EncodeChar)) :
    (assemble (unifyNewlines text) programStart).map (·.image) = .ok [0x00, 0xE0] := by
  obtain rfl : text = "CLS\r\n".toList := encode_injective (Except.ok.inj (h.symm.trans read_source))
  decide +kernel

private theorem find?_target : sourceAndTarget.find? ["o"] = some (.file [1]) := by
  decide +kernel

section
variable {disk : Disk} (hrefuses : disk.refuses ["o"] = none)
include hrefuses

private theorem writable_target : sourceAndTarget.writable disk "o" = .ok ["o"] := by
  have htarget : sourceAndTarget.target "o" = .ok ["o"] := by cbv
  unfold FileTree.writable
  rw [htarget]
  dsimp only
  rw [find?_target, if_neg nofun, hrefuses]

private theorem not_refusal {lines : List String} : ¬ Refusal sourceAndTarget disk "a" "o" lines := by
  intro h
  cases h with
  | unreadable h =>
    rw [read_source] at h
    cases h
  | refused h he =>
    have himage := image_of_source h
    rw [he] at himage
    cases himage
  | unwritable h ha hw =>
    rw [writable_target hrefuses] at hw
    cases hw
  | full h ha hw hd =>
    rw [writable_target hrefuses] at hw
    rw [← Except.ok.inj hw, find?_target] at hd
    cases hd

/-- Where the image of the source is put, and what it is. -/
private theorem place_and_image {text : List Char} {a : Assembled} {place : List String}
    (hread : sourceAndTarget.read "a" = .ok (text.flatMap String.utf8EncodeChar))
    (ha : assemble (unifyNewlines text) programStart = .ok a)
    (hw : sourceAndTarget.writable disk "o" = .ok place) : place = ["o"] ∧ a.image = [0x00, 0xE0] := by
  have himage := image_of_source hread
  rw [ha] at himage
  rw [writable_target hrefuses] at hw
  exact ⟨(Except.ok.inj hw).symm, Except.ok.inj himage⟩

private theorem writes_target {text : List Char} {s : Session}
    (hread : sourceAndTarget.read "a" = .ok (text.flatMap String.utf8EncodeChar))
    (h : Writes sourceAndTarget disk "o" text s) :
    disk.stops ["o"] [0x00, 0xE0] = none ∧ s.files.read "o" = .ok [0x00, 0xE0] := by
  obtain ⟨a, place, ha, hw, hend⟩ := h.image
  obtain ⟨rfl, hbytes⟩ := place_and_image hrefuses hread ha hw
  rw [hbytes] at hend
  rcases hend with ⟨hstops, hstands⟩ | ⟨_, d, hd⟩
  · exact ⟨hstops, hstands.read⟩
  · rw [find?_target] at hd
    cases hd

private theorem breaks_target {text : List Char} {s : Session}
    (hread : sourceAndTarget.read "a" = .ok (text.flatMap String.utf8EncodeChar))
    (h : Breaks sourceAndTarget disk "o" text s) :
    ∃ taken e, disk.stops ["o"] [0x00, 0xE0] = some (taken, e) ∧
      s.files.read "o" = .ok (List.take taken [0x00, 0xE0]) := by
  obtain ⟨a, place, taken, e, ha, hw, _, hstops, hstands, _⟩ := h.image
  obtain ⟨rfl, hbytes⟩ := place_and_image hrefuses hread ha hw
  rw [hbytes] at hstops hstands
  exact ⟨taken, e, hstops, hstands.read⟩

end

/-- The source of one instruction replaces what stood under the target. If the disk has no room for it, nothing is left
under the target. A source of one byte that starts no character is not assembled. -/
theorem one_instruction_is_written :
    let r := Session.complete (.bare .sound) sourceAndTarget ["--assemble", "a", "o"] [] false
    let broken := Session.complete (.bare withoutRoom) sourceAndTarget ["--assemble", "a", "o"] [] false
    let malformed := Session.complete (.bare .sound) malformedSource ["--assemble", "a", "o"] [] false
    NamesFile "a" ∧ NamesFile "o" ∧ (r.1 = .exit 0 ∧ r.2.files.read "o" = .ok [0x00, 0xE0]) ∧
      (broken.1 = .exit 1 ∧ broken.2.files.read "o" = .ok []) ∧
      ∃ e, decodeUtf8 [0xFF] = .error e ∧ malformed = (.failure (.text e), Session.start malformedSource) := by
  intro r broken malformed
  have htext : ∀ bytes, sourceAndTarget.read "a" = .ok bytes →
      ∃ text : List Char, bytes = text.flatMap String.utf8EncodeChar := fun bytes h =>
    ⟨_, Except.ok.inj (h.symm.trans read_source)⟩
  have hread : malformedSource.read "a" = .ok [0xFF] := by cbv
  have hnone : (decodeUtf8 [0xFF]).toOption = none := by decide +kernel
  obtain ⟨hgood, _⟩ :=
    assembling_writes_the_image_or_says_why (.bare .sound) sourceAndTarget namesFile_a namesFile_o [] false
  obtain ⟨hfull, _⟩ :=
    assembling_writes_the_image_or_says_why (.bare withoutRoom) sourceAndTarget namesFile_a namesFile_o [] false
  obtain ⟨_, hbad⟩ :=
    assembling_writes_the_image_or_says_why (.bare .sound) malformedSource namesFile_a namesFile_o [] false
  refine ⟨namesFile_a, namesFile_o, ?_, ?_, hbad _ hread fun text h => ?_⟩
  · rcases hgood htext with ⟨hexit, text, h, hwrites⟩ | ⟨_, _, hrefusal, _⟩ | ⟨_, text, h, hbreaks⟩
    · exact ⟨hexit, (writes_target rfl h hwrites).2⟩
    · exact absurd hrefusal (not_refusal rfl)
    · obtain ⟨_, _, hstops, _⟩ := breaks_target rfl h hbreaks
      cases hstops
  · rcases hfull htext with ⟨_, text, h, hwrites⟩ | ⟨_, _, hrefusal, _⟩ | ⟨hexit, text, h, hbreaks⟩
    · have hstops := (writes_target rfl h hwrites).1
      cases hstops
    · exact absurd hrefusal (not_refusal rfl)
    · obtain ⟨taken, e, hstops, hleft⟩ := breaks_target rfl h hbreaks
      obtain rfl : 0 = taken := congrArg Prod.fst (Option.some.inj hstops)
      exact ⟨hexit, hleft⟩
  · rw [decodeUtf8_ok_iff.2 h] at hnone
    cases hnone

/-- A source that is no text ends the session in neither of the two ways: with no exit code and without a word. Neither
does a disk without room, where the session ends with 1 and the target has changed. -/
theorem neither_written_nor_as_it_was :
    let malformed := Session.complete (.bare .sound) malformedSource ["--assemble", "a", "o"] [] false
    let broken := Session.complete (.bare withoutRoom) sourceAndTarget ["--assemble", "a", "o"] [] false
    ((∀ code, malformed.1 ≠ .exit code) ∧ malformed.1 = .failure (.text ⟨0, [0xFF], .invalidStart⟩) ∧
      malformed.2.errors = "") ∧
    broken.1 = .exit 1 ∧ sourceAndTarget.read "o" = .ok [1] ∧ broken.2.files.read "o" = .ok [] := by
  intro malformed broken
  have hread : malformedSource.read "a" = .ok [0xFF] := by cbv
  have htext : decodeUtf8 [0xFF] = .error ⟨0, [0xFF], .invalidStart⟩ := by decide +kernel
  have hmalformed : malformed = (.failure (.text ⟨0, [0xFF], .invalidStart⟩), Session.start malformedSource) := by
    show Session.complete _ malformedSource ["--assemble", "a", "o"] [] false = _
    rw [complete_assemble _ malformedSource namesFile_a namesFile_o]
    unfold Session.assembleFile
    rw [show (Session.start malformedSource).files.read "a" = _ from hread]
    dsimp only
    rw [htext]
  have hbroken : broken = (Session.start sourceAndTarget).assembleFile withoutRoom "a" "o" false :=
    complete_assemble _ sourceAndTarget namesFile_a namesFile_o [] false
  have hbefore : sourceAndTarget.read "o" = .ok [1] := by cbv
  rw [hmalformed]
  refine ⟨⟨nofun, rfl, rfl⟩, ?_⟩
  rw [hbroken]
  rcases assembleFile_cases sourceAndTarget withoutRoom namesFile_a namesFile_o with
    ⟨bytes, e, h, herror, _⟩ | ⟨_, hrefusal, _⟩ | ⟨text, h, ⟨_, hwrites⟩ | ⟨hexit, hbreaks⟩⟩
  · rw [read_source] at h
    rw [← Except.ok.inj h, decodeUtf8_ok_iff.2 rfl] at herror
    cases herror
  · exact absurd hrefusal (not_refusal rfl)
  · have hstops := (writes_target rfl h hwrites).1
    cases hstops
  · obtain ⟨taken, e, hstops, hleft⟩ := breaks_target rfl h hbreaks
    obtain rfl : 0 = taken := congrArg Prod.fst (Option.some.inj hstops)
    exact ⟨hexit, hbefore, hleft⟩

end Chip8.CommandLine
