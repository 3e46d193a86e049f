import RegisterMachine.CommandLine.Transcript
import RegisterMachine.Proofs.ProgramFile

namespace RegisterMachine

namespace Disk

variable {d d' : Disk}

theorem isDirectory_put {place : Place} (h : d.isDirectory place = true) (names : List String) (bytes : List UInt8) :
    (d.put names bytes).isDirectory place = true := by
  cases place with
  | outside => rfl
  | inside path =>
    simp only [isDirectory, Bool.or_eq_true, List.any_eq_true] at h ⊢
    rcases h with hr | ⟨entry, hm, he⟩
    · exact .inl hr
    right
    by_cases hn : entry.1 = names
    · exact ⟨(names, bytes), List.mem_cons_self, hn ▸ he⟩
    · exact ⟨entry, List.mem_cons_of_mem _ (List.mem_filter.mpr ⟨hm, by simpa using hn⟩), he⟩

/-- A way through directories stays open when a file is put somewhere. -/
theorem walk_put {place place' : Place} {path : List String} (h : d.walk place path = .ok place')
    (names : List String) (bytes : List UInt8) : (d.put names bytes).walk place path = .ok place' := by
  induction path generalizing place with
  | nil => exact h
  | cons name path ih =>
    simp only [walk] at h ⊢
    cases he : place.enter name with
    | error e => simp [he] at h
    | ok next =>
      simp only [he] at h ⊢
      by_cases hd : d.isDirectory next = true
      · rw [if_pos hd] at h
        rw [if_pos (isDirectory_put hd names bytes)]
        exact ih h
      · rw [if_neg hd] at h
        split at h <;> cases h

theorem route_put {path : String} {route : Route} (h : d.route path = .ok route) (names : List String)
    (bytes : List UInt8) : (d.put names bytes).route path = .ok route := by
  unfold Disk.route at h ⊢
  split at h
  next => cases h
  next hp =>
    rw [if_neg hp]
    split at h
    next => cases h
    next hl =>
      rw [if_neg hl]
      split at h
      next => cases h
      next directory hw =>
        rw [walk_put hw]
        exact h

theorem write_eq_ok {path : String} {bytes : List UInt8} (h : d.write path bytes = .ok d') :
    ∃ route names, d.route path = .ok route ∧ route.slash = false ∧
      route.directory.enter route.name = .ok (.inside names) ∧ d' = d.put names bytes := by
  unfold write at h
  cases hr : d.route path with
  | error e => rw [hr] at h; cases h
  | ok route =>
    rw [hr] at h
    change (if (route.slash || Place.isStep route.name) = true then _ else _) = _ at h
    split at h
    next => cases h
    next hs =>
      simp only [Bool.or_eq_true, not_or, Bool.not_eq_true] at hs
      cases he : route.directory.enter route.name with
      | error e => rw [he] at h; cases h
      | ok place =>
        rw [he] at h
        cases place with
        | outside => cases h
        | inside names =>
          change (if d.isDirectory (.inside names) = true then _ else _) = _ at h
          split at h <;> cases h
          exact ⟨route, names, rfl, hs.1, he, rfl⟩

/-- A file that has been written is read back under the same path. -/
theorem read_of_write {path : String} {bytes : List UInt8} (h : d.write path bytes = .ok d') :
    d'.read path = .ok bytes := by
  obtain ⟨route, names, hr, hs, he, rfl⟩ := write_eq_ok h
  have hf : (d.put names bytes).file? (.inside names) = some bytes := by simp [file?, put]
  simp only [read, route_put hr, he, hf, hs, bind, Except.bind, Bool.false_eq_true, if_false]

end Disk

namespace Transcript

/-- What the action gives and writes down does not depend on the files, and it leaves them alone. -/
def IgnoresFiles {α : Type} (x : StateM Transcript α) : Prop :=
  ∀ t disk, x.run { t with disk } = ((x.run t).1, { (x.run t).2 with disk })

section Actions

variable {α β : Type}

theorem run_bind (x : StateM Transcript α) (f : α → StateM Transcript β) (t : Transcript) :
    (x >>= f).run t = (f (x.run t).1).run (x.run t).2 := rfl

theorem ignoresFiles_pure (a : α) : IgnoresFiles (pure a) := fun _ _ => rfl

theorem IgnoresFiles.bind {x : StateM Transcript α} {f : α → StateM Transcript β} (hx : IgnoresFiles x)
    (hf : ∀ a, IgnoresFiles (f a)) : IgnoresFiles (x >>= f) := by
  intro t disk
  rw [run_bind, run_bind, hx t disk]
  exact hf (x.run t).1 (x.run t).2 disk

theorem IgnoresFiles.disk_eq {x : StateM Transcript α} (hx : IgnoresFiles x) (t : Transcript) :
    (x.run t).2.disk = t.disk := by
  have h : x.run t = _ := hx t t.disk
  rw [h]

theorem ignoresFiles_forIn (xs : List α) (init : β) {f : α → β → StateM Transcript (ForInStep β)}
    (hf : ∀ a b, IgnoresFiles (f a b)) : IgnoresFiles (forIn xs init f) := by
  induction xs generalizing init with
  | nil => exact ignoresFiles_pure init
  | cons a xs ih =>
    rw [List.forIn_cons]
    apply (hf a init).bind
    intro step
    cases step with
    | done b => exact ignoresFiles_pure b
    | yield b => exact ih b

end Actions

section Commands

variable (now : String) (settings : LogSettings)

theorem log_ignoresFiles (level : Level) (message : String) :
    IgnoresFiles (CommandLine.log (host now) settings level message) := by
  unfold CommandLine.log
  split
  next => exact fun _ _ => rfl
  next => exact ignoresFiles_pure ()

theorem passOn_ignoresFiles (machine : Machine) : IgnoresFiles (CommandLine.passOn (host now) settings machine) := by
  have htrace : ∀ {x : StateM Transcript PUnit}, IgnoresFiles x → IgnoresFiles
      (if settings.level.enabled .debug = true then x >>= fun _ => pure PUnit.unit else pure PUnit.unit) := by
    intro x hx
    split
    next => exact hx.bind fun _ => ignoresFiles_pure _
    next => exact ignoresFiles_pure _
  have hentry : ∀ message, IgnoresFiles (CommandLine.log (host now) settings .debug message >>= fun _ =>
      pure (ForInStep.yield PUnit.unit)) :=
    fun message => (log_ignoresFiles now settings _ message).bind fun _ => ignoresFiles_pure _
  unfold CommandLine.passOn
  simp only
  split
  next => exact htrace (ignoresFiles_forIn _ _ fun _ _ => hentry _)
  next => exact IgnoresFiles.bind (fun _ _ => rfl) fun _ => htrace (ignoresFiles_forIn _ _ fun _ _ => hentry _)

theorem drive_ignoresFiles (patience : Nat) (machine : Machine) :
    IgnoresFiles (CommandLine.drive (host now) settings patience machine) := by
  induction patience generalizing machine with
  | zero => exact ignoresFiles_pure _
  | succ patience ih =>
    unfold CommandLine.drive
    apply (passOn_ignoresFiles now settings _).bind
    intro _
    split
    next => exact ih _
    next => exact ignoresFiles_pure _

theorem runMachine_ignoresFiles (patience : Nat) (machine : Machine) :
    IgnoresFiles (CommandLine.runMachine (host now) settings patience machine) := by
  unfold CommandLine.runMachine
  split
  next => exact ignoresFiles_pure _
  next =>
    apply (log_ignoresFiles now settings _ _).bind
    intro _
    apply (drive_ignoresFiles now settings patience _).bind
    intro outcome
    split
    next => exact (log_ignoresFiles now settings _ _).bind fun _ => ignoresFiles_pure _
    next => exact (log_ignoresFiles now settings _ _).bind fun _ => ignoresFiles_pure _
    next => exact ignoresFiles_pure _

theorem execute_ignoresFiles (patience : Nat) (env : String → Option String) (code : List UInt8) :
    IgnoresFiles (CommandLine.execute (host now) settings patience env code) := by
  unfold CommandLine.execute
  split
  next => exact ignoresFiles_pure _
  next =>
    split
    next => exact ignoresFiles_pure _
    next => exact runMachine_ignoresFiles now settings patience _

theorem outputFor_run (input : String) (t : Transcript) :
    ∃ t', (CommandLine.outputFor (host now) settings input).run t = (Command.defaultOutput input, t') ∧
      t'.disk = t.disk := by
  unfold CommandLine.outputFor
  simp only
  split
  next => exact ⟨_, rfl, (log_ignoresFiles now settings _ _).disk_eq t⟩
  next => exact ⟨_, rfl, rfl⟩

variable {now settings}

theorem readFile_run (path : String) (t : Transcript) :
    ((host now).readFile path).run t = (t.disk.read path, t) := rfl

theorem assembleFile_of_ok {path source : String} {code : List UInt8} {t : Transcript}
    (hr : t.disk.read path = .ok (Codec.utf8 source)) (ha : assemble .standard source = .ok code) :
    (CommandLine.assembleFile (host now) settings path).run t = (.ok code, t) := by
  have hu : Codec.ofUtf8? (Codec.utf8 source) = some source := Codec.ofUtf8?_eq_some.mpr rfl
  unfold CommandLine.assembleFile
  rw [run_bind, readFile_run, hr]
  simp only [hu, ha]
  rfl

theorem writeFile_run (path : String) (bytes : List UInt8) (t : Transcript) :
    ((host now).writeFile path bytes).run t =
      match t.disk.write path bytes with
      | .ok disk => (.ok (), { t with disk })
      | .error cause => (.error cause, t) := by
  change (match t.disk.write path bytes with | .ok disk => _ | .error e => _ : StateM Transcript _).run t = _
  cases t.disk.write path bytes <;> rfl

section Source

variable {input source : String} {code : List UInt8} {t : Transcript}

theorem compile_to_run (path : String) (hr : t.disk.read input = .ok (Codec.utf8 source))
    (ha : assemble .standard source = .ok code) :
    (CommandLine.compile (host now) settings input (some path)).run t =
      match t.disk.write path (Program.toFile ⟨code⟩) with
      | .ok disk => (.ok 0, ((CommandLine.log (host now) settings .info
          s!"Compiled {input} -> {path} ({code.length} bytes of bytecode)").run { t with disk }).2)
      | .error cause => (.error (.file path cause), t) := by
  unfold CommandLine.compile
  simp only [pure_bind]
  rw [run_bind, assembleFile_of_ok hr ha]
  change ((host now).writeFile path (Program.toFile ⟨code⟩) >>= _).run t = _
  rw [run_bind, writeFile_run]
  cases t.disk.write path (Program.toFile ⟨code⟩) <;> rfl

theorem compile_to_eq_ok {path : String} {status : Int32} {t' : Transcript}
    (hr : t.disk.read input = .ok (Codec.utf8 source)) (ha : assemble .standard source = .ok code)
    (h : (CommandLine.compile (host now) settings input (some path)).run t = (.ok status, t')) :
    t'.disk.read path = .ok (Program.toFile ⟨code⟩) := by
  rw [compile_to_run path hr ha] at h
  split at h
  next disk hw =>
    cases h
    rw [(log_ignoresFiles now settings _ _).disk_eq]
    exact Disk.read_of_write hw
  next => cases h

/-- Compiling that succeeds leaves the file of the assembled program at its place. -/
theorem compile_eq_ok {output : Option String} {status : Int32} {t' : Transcript}
    (hr : t.disk.read input = .ok (Codec.utf8 source)) (ha : assemble .standard source = .ok code)
    (h : (CommandLine.compile (host now) settings input output).run t = (.ok status, t')) :
    t'.disk.read (output.getD (Command.defaultOutput input)) = .ok (Program.toFile ⟨code⟩) := by
  cases output with
  | some path => exact compile_to_eq_ok hr ha h
  | none =>
    obtain ⟨t₁, hp, hd⟩ := outputFor_run now settings input t
    have hn : (CommandLine.compile (host now) settings input none).run t =
        (CommandLine.compile (host now) settings input (some (Command.defaultOutput input))).run t₁ := by
      change (CommandLine.compile (host now) settings input
        (some ((CommandLine.outputFor (host now) settings input).run t).1)).run
        ((CommandLine.outputFor (host now) settings input).run t).2 = _
      rw [hp]
    rw [hn] at h
    rw [← hd] at hr
    exact compile_to_eq_ok hr ha h

theorem run_of_source (patience : Nat) (env : String → Option String)
    (hr : t.disk.read input = .ok (Codec.utf8 source)) (ha : assemble .standard source = .ok code) :
    (CommandLine.run (host now) settings patience env input).run t =
      (CommandLine.execute (host now) settings patience env code).run t := by
  unfold CommandLine.run
  rw [run_bind, assembleFile_of_ok hr ha]

end Source

theorem interpret_of_file {path : String} {bytes : List UInt8} {t : Transcript} (patience : Nat)
    (env : String → Option String) (h : t.disk.read path = .ok bytes) :
    (CommandLine.interpret (host now) settings patience env path).run t =
      match Program.ofFile bytes with
      | .error cause => (.error (.program cause), t)
      | .ok program => (CommandLine.execute (host now) settings patience env program.code).run t := by
  unfold CommandLine.interpret
  rw [run_bind, readFile_run, h]
  simp only
  cases Program.ofFile bytes <;> rfl

end Commands

/-- Two commands with the same answer that have printed and reported the same. -/
def Alike {α : Type} (a b : α × Transcript) : Prop :=
  a.1 = b.1 ∧ a.2.printed = b.2.printed ∧ a.2.reported = b.2.reported

/-- A program is read back from its file exactly if it keeps to the limit on lists. When a source has been compiled
to such a program, the program runs from its file as it runs from its source. -/
theorem compiled_program_runs_alike :
    (∀ p : Program, Program.ofFile p.toFile = .ok p ↔ p.code.length ≤ 16 * 1024 * 1024) ∧
    ∀ now settings input output disk source code t,
      disk.read input = .ok (Codec.utf8 source) → assemble .standard source = .ok code →
      code.length ≤ 16 * 1024 * 1024 →
      (CommandLine.compile (host now) settings input output).run { disk } = (.ok 0, t) →
      ∀ patience env,
        Alike
          ((CommandLine.interpret (host now) settings patience env
            (output.getD (Command.defaultOutput input))).run { disk := t.disk })
          ((CommandLine.run (host now) settings patience env input).run { disk }) := by
  refine ⟨Program.ofFile_toFile, ?_⟩
  intro now settings input output disk source code t hr ha hl h patience env
  have hw := compile_eq_ok (t := { disk }) hr ha h
  have hp : Program.ofFile (Program.toFile ⟨code⟩) = .ok ⟨code⟩ := (Program.ofFile_toFile ⟨code⟩).mpr hl
  have hx := execute_ignoresFiles now settings patience env code { disk } t.disk
  rw [interpret_of_file (t := { disk := t.disk }) patience env hw, hp, run_of_source patience env hr ha]
  change Alike ((CommandLine.execute (host now) settings patience env code).run { disk := t.disk }) _
  rw [hx]
  exact ⟨rfl, rfl, rfl⟩

/-- A program that halts, compiled from one file to another. -/
theorem compiled_program_runs_alike_of_halt :
    ∃ t, (CommandLine.compile (host "") {} "a" (some "b")).run { disk := ⟨[(["a"], Codec.utf8 "halt 7")]⟩ } =
        (.ok 0, t) ∧
      Alike ((CommandLine.interpret (host "") {} 1 (fun _ => none) "b").run { disk := t.disk })
        ((CommandLine.run (host "") {} 1 (fun _ => none) "a").run { disk := ⟨[(["a"], Codec.utf8 "halt 7")]⟩ }) := by
  have hroute : ∀ name ∈ ["a", "b"], Disk.route ⟨[(["a"], Codec.utf8 "halt 7")]⟩ name =
      .ok ⟨.inside [], name, false⟩ := by
    intro name hn
    have hsplit : name.splitOn "/" = [name] := by
      simp only [List.mem_cons, List.not_mem_nil, or_false] at hn
      rcases hn with rfl | rfl
      all_goals
        rw [String.splitOn, if_neg (by decide), String.splitOnAux, if_neg (by decide +kernel),
          if_neg (by decide +kernel), String.splitOnAux, if_pos (by decide +kernel)]
        decide +kernel
    rw [Disk.route, Disk.names, hsplit]
    simp only [List.mem_cons, List.not_mem_nil, or_false] at hn
    rcases hn with rfl | rfl
    · decide +kernel
    · decide +kernel
  have hr : Disk.read ⟨[(["a"], Codec.utf8 "halt 7")]⟩ "a" = .ok (Codec.utf8 "halt 7") := by
    rw [Disk.read, hroute "a" (by simp)]
    rfl
  have ha : assemble .standard "halt 7" = .ok [5, 1, 1, 7] := by decide +kernel
  have hw : Disk.write ⟨[(["a"], Codec.utf8 "halt 7")]⟩ "b" (Program.toFile ⟨[5, 1, 1, 7]⟩) =
      .ok ⟨[(["b"], Program.toFile ⟨[5, 1, 1, 7]⟩), (["a"], Codec.utf8 "halt 7")]⟩ := by
    rw [Disk.write, hroute "b" (by simp)]
    rfl
  have hc : (CommandLine.compile (host "") {} "a" (some "b")).run { disk := ⟨[(["a"], Codec.utf8 "halt 7")]⟩ } = _ :=
    compile_to_run "b" hr ha
  rw [hw] at hc
  exact ⟨_, hc, compiled_program_runs_alike.2 "" {} "a" (some "b") _ "halt 7" _ _ hr ha (by decide) hc 1 fun _ => none⟩

/-- One byte more than the limit: the writer makes a file, and the reader refuses it. -/
theorem oversized_program_unreadable :
    Program.ofFile (Program.toFile ⟨List.replicate (16 * 1024 * 1024 + 1) 0⟩) = .error (.malformed .lengthOverflow) := by
  apply Program.ofFile_toFile_of_long
  · rw [List.length_replicate]
    decide
  · rw [List.length_replicate]
    decide

end Transcript

end RegisterMachine
