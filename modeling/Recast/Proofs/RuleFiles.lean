import Recast.Files
import Recast.Proofs.Checking
import Recast.Proofs.Encoding
import Recast.Proofs.Reading

/-!
Loading a rule file. The file's bytes are read as text, the text as JSON, and the value as a rule
document; each stage has failures of its own.

* `loadFile_eq_ok_iff`: a file is loaded as the document that its text spells;
* `reason_of_loadFile`: any other failure than a fault of the configuration has its reason in the
  file's bytes or in its name (`Config.Unread`);
* `outcome_of_loadFile`: both of these, for every directory and every name.
-/

namespace Recast

open Text

/-- The text of a file whose bytes encode `text`: all its line ends are line feeds. -/
def Text.Utf8.content (text : String) : String := String.ofList (Utf8.unifyLineEnds text.toList)

namespace Files

variable {files : Files} {name : String}

/-! ## Bytes and text -/

theorem bytes_eq_ok_iff {bytes : List UInt8} :
    files.bytes name = .ok bytes ↔ isNameable name = true ∧ files name = .file bytes := by
  unfold Files.bytes
  cases isNameable name with
  | false => simp
  | true => cases files name <;> simp

/-- What cannot be read under a name is a fault of the configuration that tells the name, unless the
name cannot be given to a file system. -/
theorem unreadable_of_bytes {e : Failure}
    (h : (files.bytes name).mapError (unreadable name) = .error e) :
    (∃ cause, cause.kind = .config ∧ e = .ofCause cause (some name)) ∨
      (isNameable name = false ∧ e = nullByte) := by
  unfold Files.bytes at h
  cases nameable : isNameable name with
  | false =>
    rw [nameable] at h
    cases h
    exact Or.inr ⟨rfl, rfl⟩
  | true =>
    rw [nameable] at h
    left
    cases found : files name with
    | file bytes =>
      rw [found] at h
      cases h
    | _ =>
      rw [found] at h
      cases h
      exact ⟨_, rfl, rfl⟩

theorem decode_eq_ok_iff {bytes : List UInt8} {s : String} :
    decode bytes = .ok s ↔ ∃ text, bytes = Utf8.encode text ∧ s = Utf8.content text := by
  unfold decode Utf8.decodeFile
  rw [mapError_eq_ok, map_eq_ok]
  constructor
  · rintro ⟨text, decoded, rfl⟩
    exact ⟨text, Utf8.decode_eq_ok_iff.mp decoded, rfl⟩
  · rintro ⟨text, encoded, rfl⟩
    exact ⟨text, Utf8.decode_eq_ok_iff.mpr encoded, rfl⟩

/-- Bytes that are not read encode no text. -/
theorem encoding_of_decode {bytes : List UInt8} {e : Failure} (h : decode bytes = .error e) :
    (∀ text, bytes ≠ Utf8.encode text) ∧ ∃ message, e = .signal .encoding message := by
  constructor
  · rintro text rfl
    have read : decode (Utf8.encode text) = .ok (Utf8.content text) :=
      decode_eq_ok_iff.mpr ⟨text, rfl, rfl⟩
    cases read.symm.trans h
  · unfold decode at h
    cases found : Utf8.decodeFile bytes with
    | ok s =>
      rw [found] at h
      cases h
    | error fault =>
      rw [found] at h
      cases h
      exact ⟨_, rfl⟩

end Files

/-! ## Rule files -/

namespace Config

variable {files : Files} {name : String}

/-- Why loading a rule file can fail otherwise than with a fault of the configuration: the file's
bytes encode no text, the text holds a run of digits that is too long to be read, or the name cannot
be given to a file system. -/
inductive Unread (files : Files) (name : String) : Failure → Prop where
  | notText {bytes : List UInt8} {message : String} (file : files name = .file bytes)
      (other : ∀ text, bytes ≠ Utf8.encode text) : Unread files name (.signal .encoding message)
  | overlong {text : String} {n : Nat} (file : files name = .file (Utf8.encode text))
      (holds : Json.HoldsOverlong (Utf8.content text).toList n) :
      Unread files name (.numeralTooLong n)
  | unnameable (h : Files.isNameable name = false) : Unread files name Files.nullByte

theorem loadFile_eq_ok_iff {config : Config} :
    loadFile files name = .ok config ↔ Files.isNameable (Files.normal name) = true ∧
      ∃ text document, files (Files.normal name) = .file (Utf8.encode text) ∧
        Json.read (Utf8.content text) = .ok document ∧ load document = .ok config := by
  unfold loadFile
  constructor
  · intro h
    obtain ⟨bytes, found, h⟩ := bind_eq_ok.mp h
    obtain ⟨s, decoded, h⟩ := bind_eq_ok.mp h
    obtain ⟨nameable, file⟩ := Files.bytes_eq_ok_iff.mp (mapError_eq_ok.mp found)
    obtain ⟨text, rfl, rfl⟩ := Files.decode_eq_ok_iff.mp decoded
    split at h
    · rename_i document read
      exact ⟨nameable, text, document, file, read, h⟩
    · cases h
    · cases h
  · rintro ⟨nameable, text, document, file, read, loaded⟩
    have found := Files.bytes_eq_ok_iff.mpr ⟨nameable, file⟩
    have decoded : Files.decode (Utf8.encode text) = .ok (Utf8.content text) :=
      Files.decode_eq_ok_iff.mpr ⟨text, rfl, rfl⟩
    dsimp only
    rw [mapError_eq_ok.mpr found, ok_bind, decoded, ok_bind, read]
    exact loaded

/-- **Failures to load a rule file** are faults of the configuration that tell a path, or their
reason is in the file's bytes or in its name. -/
theorem reason_of_loadFile {e : Failure} (h : loadFile files name = .error e) :
    (∃ f path, e = .fault f ∧ f.kind = .config ∧ f.path = some path) ∨
      Unread files (Files.normal name) e := by
  have told : ∀ {cause : Cause} {path : String}, cause.kind = .config →
      ∃ f path', Failure.ofCause cause (some path) = .fault f ∧ f.kind = .config ∧
        f.path = some path' := fun config => ⟨_, _, rfl, config, rfl⟩
  unfold loadFile at h
  rcases bind_eq_error.mp h with failed | ⟨bytes, found, h⟩
  · rcases Files.unreadable_of_bytes failed with ⟨cause, config, rfl⟩ | ⟨unnameable, rfl⟩
    · exact Or.inl (told config)
    · exact Or.inr (.unnameable unnameable)
  · obtain ⟨_, file⟩ := Files.bytes_eq_ok_iff.mp (mapError_eq_ok.mp found)
    rcases bind_eq_error.mp h with failed | ⟨s, decoded, h⟩
    · obtain ⟨other, message, rfl⟩ := Files.encoding_of_decode failed
      exact Or.inr (.notText file other)
    · obtain ⟨text, rfl, rfl⟩ := Files.decode_eq_ok_iff.mp decoded
      split at h
      · rename_i document read
        -- The integers of a document that was read from a text are short.
        have spelled := not_holdsUnspelled_of_short (Json.isShort_of_read read)
        rcases failure_of_config h with ⟨f, path, rfl, config, named, _⟩ | ⟨_, unspelled⟩
        · exact Or.inl ⟨f, path, rfl, config, named⟩
        · exact absurd unspelled spelled
      · cases h
        exact Or.inl (told rfl)
      · rename_i n stopped
        cases h
        exact Or.inr (.overlong file (Json.explains_of_read stopped))

/-- **Loading a rule file.** A file is loaded as the document that its text spells, and loading it
fails with a fault of the configuration that tells a path, unless the file's bytes encode no text,
its text holds a run of digits that is too long to be read, or no file can have its name. -/
theorem outcome_of_loadFile (files : Files) (name : String) :
    (∀ config, loadFile files name = .ok config ↔ Files.isNameable (Files.normal name) = true ∧
      ∃ text document, files (Files.normal name) = .file (Utf8.encode text) ∧
        Json.read (Utf8.content text) = .ok document ∧ load document = .ok config) ∧
    ∀ e, loadFile files name = .error e →
      (∃ f path, e = .fault f ∧ f.kind = .config ∧ f.path = some path) ∨
        Unread files (Files.normal name) e :=
  ⟨fun _ => loadFile_eq_ok_iff, fun _ => reason_of_loadFile⟩

/-- A directory with one rule file, in which there are no rules. -/
theorem outcome_of_loadFile_empty :
    let files := Files.ofList [("rules.json", Utf8.encode "[]")]
    loadFile files "rules.json" = .ok (.rules []) ∧
      ∃ f path, loadFile files "other.json" = .error (.fault f) ∧ f.kind = .config ∧
        f.path = some path := by
  intro files
  have found : files (Files.normal "rules.json") = .file (Utf8.encode "[]") := by decide
  have named : Files.normal "other.json" = "other.json" := by decide
  have absent : files "other.json" = .missing := by decide
  have nameable : Files.isNameable "other.json" = true := by decide
  have missing : loadFile files "other.json" =
      .error (Files.unreadable "other.json" (Files.missingFile "other.json")) := by
    unfold loadFile
    dsimp only
    rw [named, Files.bytes, nameable, absent]
    rfl
  constructor
  · exact ((outcome_of_loadFile files "rules.json").1 _).mpr
      ⟨by decide, "[]", .list [], found, rfl, rfl⟩
  · rcases (outcome_of_loadFile files "other.json").2 _ missing with
      ⟨f, path, same, config, told⟩ | unread
    · exact ⟨f, path, missing.trans (congrArg _ same), config, told⟩
    · cases unread

/-- A file that cannot be read as text is not loaded, whatever the failure of reading it. -/
theorem loadFile_of_decode {bytes : List UInt8} {e : Failure}
    (found : files.bytes (Files.normal name) = .ok bytes)
    (refused : Files.decode bytes = .error e) :
    loadFile files name = .error e := by
  unfold loadFile
  dsimp only
  rw [mapError_eq_ok.mpr found, ok_bind, refused, error_bind]

/-- A rule file whose one byte begins no character does not fail to load as a configuration does. -/
theorem loadFile_misses_encoding :
    let files := Files.ofList [("rules.json", [0xFF])]
    files "rules.json" = .file [0xFF] ∧
      loadFile files "rules.json" = .error (.signal .encoding
        "'utf-8' codec can't decode byte 0xff in position 0: invalid start byte") ∧
      ¬ ((∃ config, loadFile files "rules.json" = .ok config) ∨
        ∃ f, loadFile files "rules.json" = .error (.fault f) ∧ f.kind = .config) := by
  intro files
  have held : files "rules.json" = .file [0xFF] := by decide
  have found : files.bytes (Files.normal "rules.json") = .ok [0xFF] := by decide
  have refused : Files.decode [0xFF] = .error (.signal .encoding
      "'utf-8' codec can't decode byte 0xff in position 0: invalid start byte") := by decide
  have failed := loadFile_of_decode found refused
  refine ⟨held, failed, ?_⟩
  rintro (⟨config, loaded⟩ | ⟨f, faulted, _⟩)
  · cases failed.symm.trans loaded
  · cases failed.symm.trans faulted

end Config

end Recast
