/-
This file models the files of a capture and the bundle that is made of them for support.

The log directory of a capture also holds its session. The writes of a bundle copy every file of
this directory, so without consent to include the session they copy it all the same, and the bundle
is free of it only if there is no session yet.
-/

import EbpfStudio.Library.FileTree

namespace EbpfStudio

variable {Contents : Type}

structure CapturePaths where
  sessionId : String
  agent : TreePath
  bpfObject : TreePath
  session : TreePath
  logDirectory : TreePath
  hostLog : TreePath
  agentLog : TreePath
  deriving DecidableEq

inductive CapturePathError where
  | agentNotFound
  | bpfNotFound
  | sessionDirectory (path : TreePath)
  deriving DecidableEq

def firstFile (tree : FileTree Contents) (candidates : List TreePath) : Option TreePath :=
  candidates.find? tree.isFile

namespace CapturePaths

def agentCandidates (executableDir workingDirectory : TreePath) : List TreePath :=
  [executableDir ++ ["android-ebpf-agent"],
    executableDir ++ ["artifacts", "android-ebpf-agent"],
    workingDirectory ++ ["android-ebpf-agent"],
    workingDirectory ++ ["target", "aarch64-linux-android", "release", "android-ebpf-agent"]]

def bpfCandidates (executableDir workingDirectory : TreePath) : List TreePath :=
  [executableDir ++ ["android-storage-ebpf.o"],
    executableDir ++ ["artifacts", "android-storage-ebpf.o"],
    workingDirectory ++ ["android-storage-ebpf.o"],
    workingDirectory ++ ["crates", "android-ebpf", "target", "bpfel-unknown-none", "release",
      "android-storage-ebpf"]]

def layout (sessionId : String) (agent bpfObject logDirectory : TreePath) : CapturePaths where
  sessionId := sessionId
  agent := agent
  bpfObject := bpfObject
  session := logDirectory ++ ["capture.ndjson"]
  logDirectory := logDirectory
  hostLog := logDirectory ++ ["host.jsonl"]
  agentLog := logDirectory ++ ["agent.jsonl"]

def discoverFrom (tree : FileTree Contents) (executable workingDirectory sessionRoot : TreePath)
    (timestamp : Nat) (sessionId : String) :
    Except CapturePathError (CapturePaths × FileTree Contents) :=
  let executableDir := if executable.isEmpty then workingDirectory else executable.dropLast
  match firstFile tree (agentCandidates executableDir workingDirectory) with
  | none => .error .agentNotFound
  | some agent =>
    match firstFile tree (bpfCandidates executableDir workingDirectory) with
    | none => .error .bpfNotFound
    | some bpfObject =>
      match tree.createDirAll sessionRoot with
      | none => .error (.sessionDirectory sessionRoot)
      | some tree =>
        let logDirectory :=
          sessionRoot ++ ["android-storage-" ++ toString timestamp ++ "-" ++ sessionId]
        match tree.createDirAll logDirectory with
        | none => .error (.sessionDirectory logDirectory)
        | some tree => .ok (layout sessionId agent bpfObject logDirectory, tree)

theorem session_of_discoverFrom {tree after : FileTree Contents}
    {executable workingDirectory sessionRoot : TreePath} {timestamp : Nat} {sessionId : String}
    {paths : CapturePaths}
    (discovered : discoverFrom tree executable workingDirectory sessionRoot timestamp sessionId =
      .ok (paths, after)) :
    paths.session = paths.logDirectory ++ ["capture.ndjson"] := by
  unfold discoverFrom at discovered
  dsimp only at discovered
  split at discovered
  · cases discovered
  split at discovered
  · cases discovered
  split at discovered
  · cases discovered
  split at discovered
  · cases discovered
  cases discovered
  rfl

end CapturePaths

inductive BundleSource (Contents : Type) where
  | generated (contents : Contents)
  | copyOf (path : TreePath)
  deriving DecidableEq

def logWrites (tree : FileTree Contents) (logDirectory : TreePath) :
    List (String × BundleSource Contents) :=
  if tree.isDir logDirectory then
    ((tree.readDir logDirectory).filter fun name => tree.isFile (logDirectory ++ [name])).map
      fun name => (name, .copyOf (logDirectory ++ [name]))
  else []

def bundleWrites (tree : FileTree Contents) (logDirectory : TreePath)
    (sessionPath : Option TreePath) (includeRawSession : Bool) (manifest : Contents)
    (metadata : Option Contents) : List (String × BundleSource Contents) :=
  let generated := ("manifest.json", manifest) ::
    metadata.toList.map fun contents => ("capture-profile.json", contents)
  let session := if includeRawSession then (sessionPath.filter tree.isFile).toList else []
  (generated.map fun write => (write.1, .generated write.2)) ++ logWrites tree logDirectory ++
    session.map fun path => ("session.ndjson", .copyOf path)

def performWrite (destination : TreePath) (tree : FileTree Contents)
    (write : String × BundleSource Contents) : FileTree Contents :=
  match write.2 with
  | .generated contents => tree.writeFile (destination ++ [write.1]) contents
  | .copyOf path =>
    match tree.readFile path with
    | some contents => tree.writeFile (destination ++ [write.1]) contents
    | none => tree

def exportBundle (tree : FileTree Contents) (destination logDirectory : TreePath)
    (sessionPath : Option TreePath) (includeRawSession : Bool) (manifest : Contents)
    (metadata : Option Contents) : Option (FileTree Contents) :=
  (tree.createDirAll destination).map fun tree =>
    (bundleWrites tree logDirectory sessionPath includeRawSession manifest metadata).foldl
      (performWrite destination) tree

structure BundleState where
  sessionId : Option String := none
  logDirectory : Option TreePath := none
  sessionPath : Option TreePath := none
  includeRawSessionInBundle : Bool := false
  deriving DecidableEq

namespace BundleState

def startDevice (state : BundleState) (paths : CapturePaths) : BundleState :=
  { state with
    sessionId := some paths.sessionId
    logDirectory := some paths.logDirectory
    sessionPath := some paths.session }

def applyLoadedSession (state : BundleState) (path : TreePath) : BundleState :=
  { state with sessionPath := some path, sessionId := none, logDirectory := none }

/-- The writes of the bundle that the application makes, which has none without a capture. -/
def diagnosticBundle (state : BundleState) (tree : FileTree Contents)
    (manifest metadata : Contents) : List (String × BundleSource Contents) :=
  state.logDirectory.elim [] fun logDirectory =>
    bundleWrites tree logDirectory state.sessionPath state.includeRawSessionInBundle manifest
      (some metadata)

def exportDiagnosticBundle (state : BundleState) (tree : FileTree Contents) (parent : TreePath)
    (manifest metadata : Contents) : Option (FileTree Contents) :=
  state.logDirectory.bind fun logDirectory =>
    exportBundle tree
      (parent ++ ["android-ebpf-diagnostics-" ++ state.sessionId.getD "session"]) logDirectory
      state.sessionPath state.includeRawSessionInBundle manifest (some metadata)

/-- The directory that the application exports its bundle to. -/
def bundleDirectory (state : BundleState) (parent : TreePath) : TreePath :=
  parent ++ ["android-ebpf-diagnostics-" ++ state.sessionId.getD "session"]

/-- The tree of an exported bundle is what the writes of the bundle make of the tree with the
directory of the bundle. -/
theorem exportDiagnosticBundle_eq (state : BundleState) (tree : FileTree Contents)
    (parent : TreePath) (manifest metadata : Contents) :
    state.exportDiagnosticBundle tree parent manifest metadata =
      state.logDirectory.bind fun _ => (tree.createDirAll (state.bundleDirectory parent)).map
        fun created => (state.diagnosticBundle created manifest metadata).foldl
          (performWrite (state.bundleDirectory parent)) created := by
  unfold exportDiagnosticBundle diagnosticBundle
  cases state.logDirectory with
  | none => rfl
  | some logDirectory => rfl

/-- A session that is loaded from a file has no logs, so no bundle is exported after it, whatever
was captured before and whether or not the raw session was to be included. -/
theorem exportDiagnosticBundle_applyLoadedSession (state : BundleState) (path : TreePath)
    (tree : FileTree Contents) (parent : TreePath) (manifest metadata : Contents) :
    (state.applyLoadedSession path).diagnosticBundle tree manifest metadata = [] ∧
      (state.applyLoadedSession path).exportDiagnosticBundle tree parent manifest metadata =
        none :=
  ⟨rfl, exportDiagnosticBundle_eq ..⟩

end BundleState

variable {logDirectory path : TreePath} {tree : FileTree Contents} {name : String}

theorem copyOf_mem_logWrites :
    (name, .copyOf path) ∈ logWrites tree logDirectory ↔
      tree.isDir logDirectory = true ∧ path = logDirectory ++ [name] ∧
        tree.isFile path = true := by
  unfold logWrites
  constructor
  · intro listed
    split at listed
    · rename_i isDir
      obtain ⟨other, kept, same⟩ := List.mem_map.mp listed
      cases same
      exact ⟨isDir, rfl, (List.mem_filter.mp kept).2⟩
    · cases listed
  · rintro ⟨isDir, rfl, isFile⟩
    rw [if_pos isDir]
    refine List.mem_map.mpr ⟨name, List.mem_filter.mpr ⟨?_, isFile⟩, rfl⟩
    exact FileTree.mem_readDir.mpr (FileTree.isSome_lookup_of_isFile isFile)

/-- For every capture directory and whatever is in it later, the bundle that the application makes
without consent has no copy of the session if and only if the session is not there. -/
theorem bundle_copies_no_session_iff {before created tree : FileTree Contents}
    {executable workingDirectory sessionRoot : TreePath} {timestamp : Nat} {sessionId : String}
    {paths : CapturePaths}
    (discovered : CapturePaths.discoverFrom before executable workingDirectory sessionRoot timestamp
      sessionId = .ok (paths, created))
    (directory : tree.isDir paths.logDirectory = true) (state : BundleState)
    (noConsent : state.includeRawSessionInBundle = false) (manifest metadata : Contents) :
    (∀ name, (name, .copyOf paths.session) ∉
        (state.startDevice paths).diagnosticBundle tree manifest metadata) ↔
      tree.isFile paths.session = false := by
  have session := CapturePaths.session_of_discoverFrom discovered
  have copied (name : String) : (name, .copyOf paths.session) ∈
      (state.startDevice paths).diagnosticBundle tree manifest metadata ↔
        paths.session = paths.logDirectory ++ [name] ∧ tree.isFile paths.session = true := by
    show (name, .copyOf paths.session) ∈ bundleWrites tree paths.logDirectory (some paths.session)
      state.includeRawSessionInBundle manifest (some metadata) ↔ _
    refine Iff.trans ?_ (copyOf_mem_logWrites.trans (and_iff_right directory))
    simp [noConsent, bundleWrites]
  simp only [copied]
  rw [← Bool.not_eq_true]
  exact ⟨fun none present => none "capture.ndjson" ⟨session, present⟩,
    fun missing _ found => missing found.2⟩

def installedTree : FileTree String :=
  (FileTree.writeFile ∅ ["bin", "android-ebpf-agent"] "agent").writeFile
    ["bin", "android-storage-ebpf.o"] "object"

def firstCapture : CapturePaths :=
  .layout "x" ["bin", "android-ebpf-agent"] ["bin", "android-storage-ebpf.o"]
    ["sessions", "android-storage-1-x"]

/-- A capture that has written its log but no session yet: the bundle has the log only. -/
theorem bundle_copies_no_session_iff_logged :
    ∃ created, CapturePaths.discoverFrom installedTree ["bin", "studio"] ["work"] ["sessions"] 1
        "x" = .ok (firstCapture, created) ∧
      let bundle := (({} : BundleState).startDevice firstCapture).diagnosticBundle
        (created.writeFile firstCapture.hostLog "started") "m" "p"
      ("host.jsonl", .copyOf firstCapture.hostLog) ∈ bundle ∧
        ∀ name, (name, .copyOf firstCapture.session) ∉ bundle := by
  refine ⟨_, rfl, by decide +kernel, ?_⟩
  have discovered : CapturePaths.discoverFrom installedTree ["bin", "studio"] ["work"]
    ["sessions"] 1 "x" = .ok (firstCapture, _) := rfl
  exact (bundle_copies_no_session_iff discovered (by decide +kernel) {} rfl "m" "p").mpr
    (by decide +kernel)

/-- The session of a capture is in the bundle that is made without consent. -/
theorem bundle_without_consent_has_session :
    ∃ created, CapturePaths.discoverFrom installedTree ["bin", "studio"] ["work"] ["sessions"] 1
        "x" = .ok (firstCapture, created) ∧
      ((({} : BundleState).startDevice firstCapture).exportDiagnosticBundle
          (created.writeFile firstCapture.session "events") ["out"] "m" "p").bind
        (·.readFile ["out", "android-ebpf-diagnostics-x", "capture.ndjson"]) = some "events" := by
  refine ⟨_, rfl, ?_⟩
  decide +kernel

end EbpfStudio
