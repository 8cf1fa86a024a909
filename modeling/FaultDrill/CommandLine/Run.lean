import FaultDrill.CommandLine.Arguments
import FaultDrill.CommandLine.Report
import FaultDrill.Compile
import FaultDrill.Lifecycle
import FaultDrill.Settings

/-!
What the command line does.

Owns:
- showing and creating document files;
- a whole run: compilation, start, waiting for an interrupt, and stop;
- the exit code and all that is printed.

A run that has made its workspace always stops what it started, whether the start succeeded, failed
or was interrupted. An interrupted start is no failure.
-/

namespace FaultDrill.CommandLine

/-- The surroundings of the program. -/
structure Surroundings where
  environment : Environment
  /-- The container runtime that is a program of some name. -/
  runtime : String → Runtime
  /-- The number of the run, should there be one. -/
  runId : RunId
  /-- Whether an interrupt arrives before a run makes its first call. -/
  interruptsAtOnce : Bool := false

namespace Surroundings

/-- Prints pieces of text. -/
def print (surroundings : Surroundings) (host : Host) (spans : List Span) : Host :=
  host.print (Span.renderAll (stylesReports surroundings.environment) spans)

/-- Prints pieces of text to the error output. -/
def printError (surroundings : Surroundings) (host : Host) (spans : List Span) : Host :=
  host.printError (Span.renderAll (stylesReports surroundings.environment) spans)

end Surroundings

/-! ## Runs -/

/-- Says where the workspace is and what its network is. -/
def announceRun (surroundings : Surroundings) (workspace : Workspace) (host : Host) : Host :=
  surroundings.print host [
    plain "ワークスペース: ", Style.name.on workspace.path.text, plain "\nネットワーク: ",
    Style.name.on workspace.network, plain "\n"]

/-- Starts the topology of a workspace unless an interrupt comes first. -/
def startUp
    (surroundings : Surroundings)
    (runtime : Runtime)
    (workspace : Workspace)
    (host : Host) :
    Startup × Host :=
  if surroundings.interruptsAtOnce then (.interrupted, host.awaitInterrupt)
  else workspace.up runtime host

/-- Says that the topology is up. -/
def announceStart (surroundings : Surroundings) (host : Host) : Host :=
  surroundings.print host
    [plain "\n", Style.best.on "✓ トポロジーが起動しました", plain "\n  Ctrl-C で停止します\n"]

/-- Waits for an interrupt if the start was completed. -/
def afterStartup (surroundings : Surroundings) (startup : Startup) (host : Host) : Host :=
  match startup with
  | .completed => (announceStart surroundings host).awaitInterrupt
  | .interrupted | .failed _ => host

/-- Says that the topology is going to be stopped. -/
def announceStop (surroundings : Surroundings) (startup : Startup) (host : Host) : Host :=
  let host := host.print "\n"
  match startup with
  | .failed _ =>
    surroundings.printError host
      [Style.bad.on "✗ 起動に失敗しました。後片付けをしています...", plain "\n"]
  | .completed | .interrupted =>
    surroundings.print host [Style.notice.on "停止中...", plain "\n"]

/-- How a run ends: a failure of the start outweighs one of the stop. -/
def conclude
    (surroundings : Surroundings)
    (startup : Startup)
    (stopped : Except ComposeError Unit)
    (host : Host) :
    Except Failure Unit × Host :=
  match startup, stopped with
  | .failed error, .error second =>
    (.error (.ofCompose error), host.printError ("  " ++ second.message ++ "\n"))
  | .failed error, .ok () => (.error (.ofCompose error), host)
  | _, .error error => (.error (.ofCompose error), host)
  | _, .ok () =>
    (.ok (), surroundings.print host [Style.good.on "✓ 停止しました", plain "\n"])

/-- Starts the topology of a workspace, waits, and stops it. -/
def runWorkspace
    (surroundings : Surroundings)
    (runtime : Runtime)
    (workspace : Workspace)
    (host : Host) :
    Except Failure Unit × Host :=
  let host := announceRun surroundings workspace host
  let (startup, host) := startUp surroundings runtime workspace host
  let host := announceStop surroundings startup (afterStartup surroundings startup host)
  let (stopped, host) := workspace.down runtime host
  conclude surroundings startup stopped host

/-- Loads a scenario for some command. -/
def loadFor (host : Host) (path : Path) : Except Failure Scenario :=
  (DocumentFile.load host.tree path).mapError
    (Failure.ofDocumentFile "設定ファイルを読み込めませんでした" path)

/-- A whole run of the scenario in a file. -/
def runFile (surroundings : Surroundings) (path : Path) (host : Host) :
    Except Failure Unit × Host :=
  let settings := Settings.ofEnvironment surroundings.environment
  match loadFor host path with
  | .error failure => (.error failure, host)
  | .ok scenario =>
    match scenario.compile host settings.workspacePath surroundings.runId with
    | (.error error, host) => (.error (.ofCompose error), host)
    | (.ok workspace, host) =>
      runWorkspace surroundings (surroundings.runtime settings.program) workspace host

/-! ## Document files -/

/-- Shows the scenario in a file. -/
def showFile (surroundings : Surroundings) (path : Path) (host : Host) :
    Except Failure Unit × Host :=
  match loadFor host path with
  | .error failure => (.error failure, host)
  | .ok scenario => (.ok (), surroundings.print host (summary path scenario))

/-- The file that is created if none is named. -/
def defaultFile : Path := ⟨"chaosflow.yaml"⟩

/-- Creates a file with the sample document. -/
def createFile (surroundings : Surroundings) (path : Path) (host : Host) :
    Except Failure Unit × Host :=
  match DocumentFile.create host.tree path with
  | .error error =>
    (.error (.ofDocumentFile "設定ファイルを作成できませんでした" path error), host)
  | .ok tree =>
    (.ok (), surroundings.print { host with tree } [
      Style.good.on "created config file", plain " ", Style.name.on path.text, plain "\n"])

/-- Does something with the document file that is named or found. -/
def withFile
    (surroundings : Surroundings)
    (named : Option Path)
    (action : Path → Host → Except Failure Unit × Host)
    (host : Host) :
    Except Failure Unit × Host :=
  match Discovery.find surroundings.environment host.tree named with
  | .error error => (.error (.ofDiscovery error), host)
  | .ok path => action path host

/-! ## The program -/

/-- The exit code for a failure. -/
def failureCode : Nat := 1

/-- The exit code for wrong arguments. -/
def usageCode : Nat := 2

/-- Carries out a request. -/
def carryOut (surroundings : Surroundings) (request : Request) (host : Host) :
    Except Failure Unit × Host :=
  let styled := stylesUsage surroundings.environment
  match request with
  | .help => (.ok (), host.print (Span.renderAll styled helpText))
  | .version => (.ok (), host.print versionText)
  | .show named => withFile surroundings named (showFile surroundings) host
  | .up named => withFile surroundings named (runFile surroundings) host
  | .create named => createFile surroundings (named.getD defaultFile) host

/-- Runs the program with some arguments: its exit code and the host afterwards. -/
def run (surroundings : Surroundings) (arguments : List String) (host : Host) : Nat × Host :=
  match Request.ofArguments arguments with
  | .error error =>
    (usageCode, host.printError
      (Span.renderAll (stylesUsage surroundings.environment) error.report))
  | .ok request =>
    match carryOut surroundings request host with
    | (.ok (), host) => (0, host)
    | (.error failure, host) => (failureCode, host.printError failure.report)

end FaultDrill.CommandLine
