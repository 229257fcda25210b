import BatchPool.Ingest.Buffer

/-!
# What goes through a buffer

A file that takes all that is written to it gets the lines of a run byte by byte.

* `Buffer.Takes`: what is written to the file is appended to its content. So it is for a file in a
  `FileTree` (`FileTree.takes_file`), and for the standard output (`FileTree.takes_output`).
* `Buffer.Passes`: what is written goes to the file, but for what the buffer still holds.
* `Buffer.run_writeLines`: nothing is held back at the end.
-/

namespace BatchPool

namespace Buffer

variable {σ H : Type}

/-- Where the file is ready it takes all that is written to it, and is ready for more. -/
def Takes (ops : FileOps (StateM σ) H) (file : H) (ready : σ → Prop) (content : σ → Bytes) : Prop :=
  ∀ s, ready s → ∀ bytes, ∃ s', (ops.append file bytes).run s = (.ok (), s') ∧ ready s' ∧
    content s' = content s ++ bytes

/-- By the action the bytes behind those in the buffer go to the file, but for what the buffer holds
then. -/
def Passes (ready : σ → Prop) (content : σ → Bytes) (bytes : Bytes)
    (act : StateT Buffer (StateM σ) (Except OsError Unit)) : Prop :=
  ∀ b s, ready s → ∃ b' s', (act.run b).run s = ((.ok (), b'), s') ∧ ready s' ∧
    content s' ++ b'.held = content s ++ b.held ++ bytes

/-- The bytes of lines, with the line feeds behind them. -/
def lineBytes (texts : List String) : Bytes := texts.flatMap fun text => bytesOf text ++ [0x0A]

variable {ops : FileOps (StateM σ) H} {file : H} {ready : σ → Prop} {content : σ → Bytes}
  {x y : Bytes} {a b : StateT Buffer (StateM σ) (Except OsError Unit)}

/-- What follows an action goes on where the action ends. -/
theorem run_bind_of {α β : Type} {a : StateT Buffer (StateM σ) α}
    {next : α → StateT Buffer (StateM σ) β} {held held' : Buffer} {s s' : σ} {r : α}
    (h : (a.run held).run s = ((r, held'), s')) :
    ((a >>= next).run held).run s = ((next r).run held').run s' := by
  rw [StateT.run_bind, StateT.run_bind, h]
  rfl

/-- An action on the file leaves the buffer as it is. -/
theorem run_lift_of {α : Type} {act : StateM σ α} {held : Buffer} {s s' : σ} {r : α}
    (h : act.run s = (r, s')) :
    ((liftM act : StateT Buffer (StateM σ) α).run held).run s = ((r, held), s') := by
  show (fun p : α × σ => ((p.1, held), p.2)) (act.run s) = _
  rw [h]

/-- One write after another. -/
theorem Passes.bind (ha : Passes ready content x a) (hb : Passes ready content y b)
    {next : Except OsError Unit → StateT Buffer (StateM σ) (Except OsError Unit)}
    (goesOn : next (.ok ()) = b) : Passes ready content (x ++ y) (a >>= next) := by
  intro held s isReady
  obtain ⟨held', s', ran, isReady, bytes⟩ := ha held s isReady
  obtain ⟨held'', s'', later, isReady, more⟩ := hb held' s' isReady
  refine ⟨held'', s'', ?_, isReady, ?_⟩
  · rw [run_bind_of ran, goesOn, later]
  · rw [more, bytes, List.append_assoc]

/-- The buffer is empty when it was flushed. -/
theorem run_flush (takes : Takes ops file ready content) (held : Buffer) {s : σ} (isReady : ready s) :
    ∃ s', ((flush ops file).run held).run s = ((.ok (), {}), s') ∧ ready s' ∧
      content s' = content s ++ held.held := by
  obtain ⟨bytes⟩ := held
  cases bytes with
  | nil => exact ⟨s, rfl, isReady, (List.append_nil _).symm⟩
  | cons first rest =>
    obtain ⟨s', written, isReady, bytes⟩ := takes s isReady (first :: rest)
    refine ⟨s', ?_, isReady, bytes⟩
    simp only [flush, StateT.run_bind, StateT.run_get, pure_bind, List.isEmpty_cons,
      Bool.false_eq_true, if_false, run_lift_of written]
    rfl

/-- Bytes that are as large as the buffer are placed only where it is empty. -/
theorem run_place (takes : Takes ops file ready content) (bytes : Bytes) (held : Buffer) {s : σ}
    (isReady : ready s) (fits : capacity ≤ bytes.length → held.held = []) :
    ∃ held' s', ((place ops file bytes).run held).run s = ((.ok (), held'), s') ∧ ready s' ∧
      content s' ++ held'.held = content s ++ held.held ++ bytes := by
  by_cases large : capacity ≤ bytes.length
  · obtain ⟨s', written, isReady, all⟩ := takes s isReady bytes
    refine ⟨held, s', ?_, isReady, by simp [all, fits large]⟩
    rw [place, if_pos large]
    exact run_lift_of written
  · refine ⟨{ held := held.held ++ bytes }, s, ?_, isReady, (List.append_assoc ..).symm⟩
    rw [place, if_neg large]
    rfl

theorem passes_write (takes : Takes ops file ready content) (bytes : Bytes) :
    Passes ready content bytes (write ops file bytes) := by
  intro held s isReady
  by_cases fits : held.held.length + bytes.length ≤ capacity
  · have empty : capacity ≤ bytes.length → held.held = [] := fun large =>
      List.length_eq_zero_iff.1 (by omega)
    obtain ⟨held', s', ran, rest⟩ := run_place takes bytes held isReady empty
    refine ⟨held', s', ?_, rest⟩
    simpa [write, fits] using ran
  · obtain ⟨s', flushed, isReady, all⟩ := run_flush takes held isReady
    obtain ⟨held', s'', placed, isReady, more⟩ := run_place takes bytes {} isReady fun _ => rfl
    refine ⟨held', s'', ?_, isReady, ?_⟩
    · simp only [write, StateT.run_bind, StateT.run_get, pure_bind, if_neg fits, flushed]
      exact placed
    · rw [more, all, List.append_nil]

theorem passes_writeLine (takes : Takes ops file ready content) (text : String) :
    Passes ready content (bytesOf text ++ [0x0A]) (writeLine ops file text) :=
  (passes_write takes (bytesOf text)).bind (passes_write takes [0x0A]) rfl

/-- **A file that takes all that is written to it gets the lines byte by byte.** -/
theorem run_writeLines (takes : Takes ops file ready content) (texts : List String) (held : Buffer)
    {s : σ} (isReady : ready s) :
    ∃ s', ((writeLines ops file texts).run held).run s = ((.ok (), {}), s') ∧ ready s' ∧
      content s' = content s ++ held.held ++ lineBytes texts := by
  induction texts generalizing held s with
  | nil =>
    obtain ⟨s', flushed, isReady, all⟩ := run_flush takes held isReady
    exact ⟨s', flushed, isReady, by rw [all, lineBytes, List.flatMap_nil, List.append_nil]⟩
  | cons text rest ih =>
    obtain ⟨held', s', written, isReady, all⟩ := passes_writeLine takes text held s isReady
    obtain ⟨s'', ran, isReady, more⟩ := ih held' isReady
    refine ⟨s'', ?_, isReady, ?_⟩
    · exact (run_bind_of written).trans ran
    · simp [more, all, lineBytes]

end Buffer

/-! ## Files in a tree -/

namespace FileTree

theorem find?_put (t : FileTree) (path : List String) (node : Node) :
    (t.put path node).find? path = some node := by
  simp [find?, put]

theorem run_append {t t' : FileTree} {path : List String} {bytes : Bytes}
    (h : t.append path bytes = .ok t') :
    (ops.append path bytes).run t = (.ok (), t') := by
  simp only [ops, StateT.run_bind, StateT.run_get, pure_bind, h]
  rfl

/-- A file in a tree takes all that is written to it. -/
theorem takes_file (path : List String) :
    Buffer.Takes ops path (fun t => ∃ old, t.find? path = some (.file old))
      fun t => (t.contents path).1 := by
  rintro t ⟨old, found⟩ bytes
  have appended : t.append path bytes = .ok (t.put path (.file (old ++ bytes))) := by
    rw [append, found]
  refine ⟨_, run_append appended, ⟨_, find?_put ..⟩, ?_⟩
  simp only [contents, find?_put, found]

/-- So does the standard output. -/
theorem takes_output (path : List String) :
    Buffer.Takes ops path (fun t => t.find? path = some (.device .output)) (·.output) := by
  intro t found bytes
  have appended : t.append path bytes = .ok { t with output := t.output ++ bytes } := by
    rw [append, found]
  exact ⟨_, run_append appended, found, rfl⟩

end FileTree

end BatchPool
