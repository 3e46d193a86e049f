import RegisterMachine.CommandLine

namespace RegisterMachine

/-- What commands leave behind: the files, what was printed and what was reported. -/
structure Transcript where
  disk : Disk := {}
  printed : Array UInt8 := #[]
  reported : String := ""

namespace Transcript

/-- A host that works on a tree of files and writes everything down. All its moments are called
`now`. -/
def host (now : String) : Host (StateM Transcript) where
  readFile path := do return (← get).disk.read path
  writeFile path bytes := do
    match (← get).disk.write path bytes with
    | .ok disk =>
      modify fun t => { t with disk }
      return .ok ()
    | .error e => return .error e
  print bytes := modify fun t => { t with printed := t.printed ++ bytes }
  report text := modify fun t => { t with reported := t.reported ++ text }
  time := return now

/-- Carries out a command line on a tree of files. -/
def ofCommandLine (now : String) (patience : Nat) (program : String)
    (env : String → Option String) (arguments : List String) (disk : Disk) :
    UInt8 × Transcript :=
  (CommandLine.invoke (host now) patience program env arguments).run { disk }

end Transcript

end RegisterMachine
