/-
# One daemon at a time

A daemon that starts reads `daemon.json` and refuses if the process named there is
alive. Otherwise it removes what it read, binds its port, and writes an entry of its own:
first to a temporary file, which it then renames. On shutdown it removes the entry.

The steps of several daemons on the same files interleave here, each access to a file
and each probe being one step. What the operating system answers is part of the step.
-/

import Mathlib.Data.Fintype.Basic
import Mlink.Lib.Transition
import Mlink.Protocol.Types

namespace Mlink.Daemon.Lifecycle

open Mlink.Protocol

structure DaemonInfo where
  port : UInt16
  pid : UInt32
  deriving DecidableEq, Repr

inductive DaemonError
  | alreadyRunning (pid : UInt32) (port : UInt16)
  | io (message : String)
  | json (message : String)
  | mlink (error : MlinkError)
  | noHome
  deriving DecidableEq, Repr

/-- The contents of a file: what parsing makes of it, and the daemon that wrote it.
No daemon sees the author. -/
structure Entry (Process : Type) where
  info : Option DaemonInfo
  author : Option Process
  deriving DecidableEq

/-- How far a daemon has come in `bindAndPrepare` and `awaitShutdown`. -/
inductive Stage
  | idle
  /-- About to read `daemon.json`. -/
  | starting
  /-- It could not be parsed, and is about to be removed. -/
  | corrupt
  /-- About to probe the process that it names. -/
  | probing (info : DaemonInfo)
  /-- That process is dead, and the file about to be removed. -/
  | stale
  /-- About to build the state and bind the listener. -/
  | clear
  /-- About to write the temporary file. -/
  | bound (port : UInt16)
  /-- About to rename it. -/
  | staged
  | serving
  /-- About to remove `daemon.json`. -/
  | stopping (failure : Option DaemonError)
  /-- Returned, with an error or without. -/
  | ended (failure : Option DaemonError)
  /-- The process has exited or was killed. -/
  | gone
  deriving DecidableEq, Repr

namespace Stage

/-- The process exists. -/
def live : Stage → Bool
  | .idle | .gone => false
  | _ => true

/-- Between reading `daemon.json` and having written it. -/
def inStartUp : Stage → Bool
  | .corrupt | .probing _ | .stale | .clear | .bound _ | .staged => true
  | _ => false

/-- Between having written `daemon.json` and removing it. -/
def holding : Stage → Bool
  | .serving | .stopping _ => true
  | _ => false

/-- Start-up is over. -/
def pastStartUp : Stage → Bool
  | .serving | .stopping _ | .ended _ | .gone => true
  | _ => false

/-- A daemon that holds the entry exists. -/
theorem live_of_holding {stage : Stage} (holds : stage.holding = true) : stage.live = true := by
  cases stage <;> first | rfl | contradiction

/-- During start-up a daemon is not past it. -/
theorem not_pastStartUp {stage : Stage} (inside : stage.inStartUp = true) :
    stage.pastStartUp = false := by
  cases stage <;> first | rfl | contradiction

/-- Past start-up, a process that does not exist is gone. -/
theorem eq_gone_of_not_live {stage : Stage} (past : stage.pastStartUp = true)
    (dead : stage.live = false) : stage = .gone := by
  cases stage <;> first | rfl | contradiction

end Stage

/-- The daemons and the files they share. -/
structure World (Process : Type) where
  pid : Process → {pid : UInt32 // pid ≠ 0}
  stage : Process → Stage
  daemonFile : Option (Entry Process)
  tmpFile : Option (Entry Process)
  /-- Who removed whose entry while the author was still alive. -/
  taken : List (Process × Process)

namespace World

variable {Process : Type}

/-- No daemon has started yet. The files hold whatever earlier processes left. -/
def start (pid : Process → {pid : UInt32 // pid ≠ 0})
    (daemonFile tmpFile : Option (Option DaemonInfo)) : World Process :=
  ⟨pid, fun _ => .idle, daemonFile.map (⟨·, none⟩), tmpFile.map (⟨·, none⟩), []⟩

/-- A daemon proceeds to a stage. -/
def move [DecidableEq Process] (world : World Process) (process : Process) (stage : Stage) :
    World Process :=
  { world with stage := Function.update world.stage process stage }

/-- Probe a process. The daemons are not all the processes there are: `foreign` tells
whether another one has the pid. -/
def pidAlive [Fintype Process] (world : World Process) (pid : UInt32) (foreign : Bool) : Bool :=
  pid ≠ 0 ∧ (foreign = true ∨
    ∃ process, (world.stage process).live = true ∧ world.pid process = pid)

/-- What `ensureSingleInstance` does next, once it has read `daemon.json`. -/
def ensureSingleInstance : Option (Option DaemonInfo) → Stage
  | none => .clear
  | some none => .corrupt
  | some (some info) => .probing info

/-- What it does next, once it has probed the process named there. -/
def refuseAlive (info : DaemonInfo) (alive : Bool) : Stage :=
  if alive then .ended (some (.alreadyRunning info.pid info.port)) else .stale

/-- Whose entry is taken from them if a daemon removes `daemon.json` now. -/
def takenBy [DecidableEq Process] (world : World Process) (process : Process) :
    List (Process × Process) :=
  match world.daemonFile.bind Entry.author with
  | some author =>
      if author ≠ process ∧ (world.stage author).live = true then [(process, author)] else []
  | none => []

/-- Remove `daemon.json`. A failure is ignored. -/
def removeDaemonInfo [DecidableEq Process] (world : World Process) (process : Process)
    (removes : Bool) : World Process :=
  if removes then
    { world with daemonFile := none, taken := world.taken ++ world.takenBy process }
  else world

/-- Where a step can fail, the event names the error. -/
inductive Event (Process : Type)
  | start (process : Process)
  | read (process : Process) (failure : Option DaemonError)
  | probe (process : Process) (foreign : Bool)
  | remove (process : Process) (removes : Bool)
  /-- Build the state and bind the listener. -/
  | bind (process : Process) (port : UInt16) (failure : Option DaemonError)
  /-- Write the temporary file. -/
  | write (process : Process) (failure : Option DaemonError)
  | rename (process : Process) (failure : Option DaemonError)
  /-- A signal asks to shut down, or serving fails. -/
  | stop (process : Process) (failure : Option DaemonError)
  | exit (process : Process)
  | kill (process : Process)

/-- One step. An event of a daemon that is not at that point changes nothing. -/
def after [DecidableEq Process] [Fintype Process] (world : World Process) :
    Event Process → World Process
  | .start process =>
      match world.stage process with
      | .idle => world.move process .starting
      | _ => world
  | .read process failure =>
      match world.stage process, failure with
      | .starting, none =>
          world.move process (ensureSingleInstance (world.daemonFile.map Entry.info))
      | .starting, some error => world.move process (.ended (some error))
      | _, _ => world
  | .probe process foreign =>
      match world.stage process with
      | .probing info => world.move process (refuseAlive info (world.pidAlive info.pid foreign))
      | _ => world
  | .remove process removes =>
      match world.stage process with
      | .corrupt | .stale => (world.removeDaemonInfo process removes).move process .clear
      | .stopping failure =>
          (world.removeDaemonInfo process removes).move process (.ended failure)
      | _ => world
  | .bind process port failure =>
      match world.stage process, failure with
      | .clear, none => world.move process (.bound port)
      | .clear, some error => world.move process (.ended (some error))
      | _, _ => world
  | .write process failure =>
      match world.stage process, failure with
      | .bound port, none =>
          let info : DaemonInfo := ⟨port, world.pid process⟩
          { world with tmpFile := some ⟨some info, some process⟩ }.move process .staged
      | .bound _, some error => world.move process (.ended (some error))
      | _, _ => world
  | .rename process failure =>
      match world.stage process, failure with
      | .staged, none =>
          match world.tmpFile with
          | some entry =>
              { world with daemonFile := some entry, tmpFile := none }.move process .serving
          | none =>
              world.move process (.ended (some (.io "No such file or directory (os error 2)")))
      | .staged, some error => world.move process (.ended (some error))
      | _, _ => world
  | .stop process failure =>
      match world.stage process with
      | .serving => world.move process (.stopping failure)
      | _ => world
  | .exit process =>
      match world.stage process with
      | .ended _ => world.move process .gone
      | _ => world
  | .kill process => if (world.stage process).live then world.move process .gone else world

/-- No two daemons serve, and no entry was removed by another than its author while the
author was alive. -/
def Safe (world : World Process) : Prop :=
  (∀ process other, world.stage process = .serving → world.stage other = .serving →
    process = other) ∧ world.taken = []

/-- A daemon reads `daemon.json` only while no other is between reading and writing it. -/
def StartsAlone (world : World Process) : Event Process → Prop
  | .read process _ => world.stage process = .starting →
      ∀ other, other ≠ process → (world.stage other).inStartUp = false
  | _ => True

/-! ## What a daemon may rely on -/

/-- No other daemon holds the entry. -/
def Vacant (world : World Process) (process : Process) : Prop :=
  ∀ other, other ≠ process → (world.stage other).holding = false

/-- What has to hold for a daemon to be at a stage. -/
def Fits (world : World Process) (process : Process) : Stage → Prop
  | .corrupt => (∀ entry, world.daemonFile = some entry → entry.info = none) ∧ world.Vacant process
  | .probing info => (∀ entry, world.daemonFile = some entry → entry.info = some info) ∧
      ∀ other, other ≠ process → (world.stage other).holding = true → world.pid other = info.pid
  | .stale => (∀ entry author, world.daemonFile = some entry → entry.author = some author →
      world.stage author = .gone) ∧ world.Vacant process
  | .clear | .bound _ => world.Vacant process
  | .staged => (∃ info : DaemonInfo, world.tmpFile = some ⟨some info, some process⟩ ∧
      info.pid = world.pid process) ∧ world.Vacant process
  | .serving | .stopping _ => ∃ info : DaemonInfo,
      world.daemonFile = some ⟨some info, some process⟩ ∧ info.pid = world.pid process
  | .idle | .starting | .ended _ | .gone => True

/-- Daemons start up one after the other, and the file is what each relies on. -/
structure Orderly (world : World Process) : Prop where
  fits : ∀ process, world.Fits process (world.stage process)
  alone : ∀ process other, (world.stage process).inStartUp = true →
    (world.stage other).inStartUp = true → process = other
  authored : ∀ entry author, world.daemonFile = some entry → entry.author = some author →
    (world.stage author).pastStartUp = true ∧
      ∃ info : DaemonInfo, entry.info = some info ∧ info.pid = world.pid author
  untaken : world.taken = []

section Invariant

variable {world : World Process}

/-- Outside start-up and without the entry, nothing has to hold. -/
theorem fits_of_outside (process : Process) {stage : Stage} (outside : stage.inStartUp = false)
    (free : stage.holding = false) : world.Fits process stage := by
  cases stage <;> trivial

/-- The entry is that of the daemon that holds it. -/
theorem Orderly.held (orderly : world.Orderly) {process : Process}
    (holds : (world.stage process).holding = true) : ∃ info : DaemonInfo,
      world.daemonFile = some ⟨some info, some process⟩ ∧ info.pid = world.pid process := by
  have hfits := orderly.fits process
  cases hstage : world.stage process <;> rw [hstage] at holds hfits <;>
    first | exact hfits | contradiction

/-- Only one daemon holds the entry. -/
theorem Orderly.holder_unique (orderly : world.Orderly) {process other : Process}
    (hfirst : (world.stage process).holding = true)
    (hsecond : (world.stage other).holding = true) : process = other := by
  obtain ⟨_, hfile, _⟩ := orderly.held hfirst
  obtain ⟨_, hsame, _⟩ := orderly.held hsecond
  rw [hfile, Option.some.injEq, Entry.mk.injEq] at hsame
  exact Option.some.inj hsame.2

/-- Nobody holds a file that names no daemon. -/
theorem Orderly.vacant_of_unnamed (orderly : world.Orderly) (process : Process)
    (unnamed : ∀ entry, world.daemonFile = some entry → entry.info = none) :
    world.Vacant process := by
  intro other _
  apply Bool.eq_false_iff.mpr
  intro hheld
  obtain ⟨info, hentry, _⟩ := orderly.held hheld
  cases unnamed _ hentry

/-- While a daemon starts up, no other does. -/
theorem Orderly.outside_of_inStartUp (orderly : world.Orderly) {process other : Process}
    (inside : (world.stage process).inStartUp = true) (hother : other ≠ process) :
    (world.stage other).inStartUp = false :=
  Bool.eq_false_iff.mpr fun hinside => hother (orderly.alone other process hinside inside)

theorem Orderly.safe (orderly : world.Orderly) : world.Safe := by
  refine ⟨?_, orderly.untaken⟩
  intro process other hprocess hother
  exact orderly.holder_unique (by rw [hprocess]; rfl) (by rw [hother]; rfl)

/-- What holds for a stage does not depend on how far others are, as long as no other
comes to hold the entry and the dead stay dead. -/
theorem Fits.mono {process : Process} {stage : Stage} {world' : World Process}
    (fits : world.Fits process stage) (hpid : world'.pid = world.pid)
    (hfile : world'.daemonFile = world.daemonFile) (htmp : world'.tmpFile = world.tmpFile)
    (hholding : ∀ other, other ≠ process → (world'.stage other).holding = true →
      (world.stage other).holding = true)
    (hgone : ∀ other, world.stage other = .gone → world'.stage other = .gone) :
    world'.Fits process stage := by
  have hvacant : world.Vacant process → world'.Vacant process := by
    intro vacant other hother
    apply Bool.eq_false_iff.mpr
    intro hheld
    have hbefore := hholding other hother hheld
    rw [vacant other hother] at hbefore
    cases hbefore
  cases stage with
  | corrupt => exact ⟨by rw [hfile]; exact fits.1, hvacant fits.2⟩
  | probing info =>
      refine ⟨by rw [hfile]; exact fits.1, ?_⟩
      intro other hother hheld
      rw [hpid]
      exact fits.2 other hother (hholding other hother hheld)
  | stale =>
      refine ⟨?_, hvacant fits.2⟩
      intro entry author hentry hauthor
      rw [hfile] at hentry
      exact hgone author (fits.1 entry author hentry hauthor)
  | clear => exact hvacant fits
  | bound port => exact hvacant fits
  | staged => exact ⟨by rw [htmp, hpid]; exact fits.1, hvacant fits.2⟩
  | serving =>
      obtain ⟨info, hentry, hsame⟩ := fits
      exact ⟨info, hfile.trans hentry, hsame.trans (congrFun (congrArg (fun f q => (f q).1) hpid)
        process).symm⟩
  | stopping failure =>
      obtain ⟨info, hentry, hsame⟩ := fits
      exact ⟨info, hfile.trans hentry, hsame.trans (congrFun (congrArg (fun f q => (f q).1) hpid)
        process).symm⟩
  | _ => trivial

/-- The file may go while nobody holds it. -/
theorem Orderly.cleared (orderly : world.Orderly)
    (vacant : ∀ process, (world.stage process).holding = false) :
    Orderly { world with daemonFile := none } where
  fits process := by
    have hfits := orderly.fits process
    have hfree := vacant process
    change Fits _ process (world.stage process)
    cases hstage : world.stage process <;> rw [hstage] at hfits hfree
    case corrupt => exact ⟨fun _ hnone => (Option.some_ne_none _ hnone.symm).elim, hfits.2⟩
    case probing => exact ⟨fun _ hnone => (Option.some_ne_none _ hnone.symm).elim, hfits.2⟩
    case stale => exact ⟨fun _ _ hnone => (Option.some_ne_none _ hnone.symm).elim, hfits.2⟩
    case serving => cases hfree
    case stopping => cases hfree
    all_goals exact hfits
  alone := orderly.alone
  authored _ _ hnone := (Option.some_ne_none _ hnone.symm).elim
  untaken := orderly.untaken

variable [DecidableEq Process]

/-- A daemon proceeds without touching a file. -/
theorem Orderly.move (orderly : world.Orderly) {process : Process} {stage : Stage}
    (fits : world.Fits process stage)
    (hholding : stage.holding = true → (world.stage process).holding = true)
    (halone : stage.inStartUp = true →
      ∀ other, other ≠ process → (world.stage other).inStartUp = false)
    (hpast : (world.stage process).pastStartUp = true → stage.pastStartUp = true)
    (hlive : world.stage process ≠ .gone) : (world.move process stage).Orderly := by
  have hself : (world.move process stage).stage process = stage := Function.update_self ..
  have hothers : ∀ {other}, other ≠ process →
      (world.move process stage).stage other = world.stage other :=
    fun hother => Function.update_of_ne hother ..
  have hgone : ∀ other, world.stage other = .gone →
      (world.move process stage).stage other = .gone := by
    intro other hdead
    rw [hothers, hdead]
    rintro rfl
    exact hlive hdead
  constructor
  · intro other
    by_cases hother : other = process
    · rw [hother, hself]
      exact fits.mono rfl rfl rfl (fun _ hne hheld => by rwa [hothers hne] at hheld) hgone
    · rw [hothers hother]
      refine (orderly.fits other).mono rfl rfl rfl ?_ hgone
      intro third _ hheld
      by_cases hthird : third = process
      · rw [hthird, hself] at hheld
        rw [hthird]
        exact hholding hheld
      · rwa [hothers hthird] at hheld
  · intro first second hfirst hsecond
    by_cases hone : first = process <;> by_cases htwo : second = process
    · rw [hone, htwo]
    · rw [hone, hself] at hfirst
      rw [hothers htwo, halone hfirst second htwo] at hsecond
      cases hsecond
    · rw [htwo, hself] at hsecond
      rw [hothers hone, halone hsecond first hone] at hfirst
      cases hfirst
    · rw [hothers hone] at hfirst
      rw [hothers htwo] at hsecond
      exact orderly.alone first second hfirst hsecond
  · intro entry author hentry hauthor
    obtain ⟨hbefore, hinfo⟩ := orderly.authored entry author hentry hauthor
    refine ⟨?_, hinfo⟩
    by_cases hsame : author = process
    · rw [hsame] at hbefore ⊢
      rw [hself]
      exact hpast hbefore
    · rwa [hothers hsame]
  · exact orderly.untaken

/-- A daemon gives up, or is gone: it keeps no claim to anything. -/
theorem Orderly.leave (orderly : world.Orderly) {process : Process} {stage : Stage}
    (houtside : stage.inStartUp = false) (hfree : stage.holding = false)
    (hpast : stage.pastStartUp = true) (live : (world.stage process).live = true) :
    (world.move process stage).Orderly := by
  apply orderly.move (fits_of_outside process houtside hfree) _ _ (fun _ => hpast) _
  · intro hholding
    rw [hfree] at hholding
    cases hholding
  · intro hinside
    rw [houtside] at hinside
    cases hinside
  · intro hgone
    rw [hgone] at live
    cases live

/-- A daemon proceeds within start-up. -/
theorem Orderly.proceed (orderly : world.Orderly) {process : Process} {stage : Stage}
    (hinside : (world.stage process).inStartUp = true) (hfree : stage.holding = false)
    (fits : world.Fits process stage) : (world.move process stage).Orderly := by
  apply orderly.move fits
  · intro hholding
    rw [hfree] at hholding
    cases hholding
  · exact fun _ _ => orderly.outside_of_inStartUp hinside
  · intro hpast
    rw [Stage.not_pastStartUp hinside] at hpast
    cases hpast
  · intro hgone
    rw [hgone] at hinside
    cases hinside

/-- Nobody is deprived by a removal if the author of the entry is the remover or dead. -/
theorem takenBy_eq_nil {process : Process}
    (hauthor : ∀ entry author, world.daemonFile = some entry → entry.author = some author →
      author = process ∨ world.stage author = .gone) : world.takenBy process = [] := by
  rw [takenBy]
  split
  · next author hentry =>
      obtain ⟨entry, hfile, hsome⟩ := Option.bind_eq_some_iff.mp hentry
      rcases hauthor entry author hfile hsome with hself | hdead
      · simp [hself]
      · simp [hdead, Stage.live]
  · rfl

/-- A daemon removes the file that nobody else needs, and proceeds. -/
theorem Orderly.remove {process : Process} {stage : Stage} (removes : Bool)
    (orderly : (world.move process stage).Orderly)
    (hfree : stage.holding = false) (vacant : world.Vacant process)
    (hauthor : ∀ entry author, world.daemonFile = some entry → entry.author = some author →
      author = process ∨ world.stage author = .gone) :
    ((world.removeDaemonInfo process removes).move process stage).Orderly := by
  cases removes with
  | false => exact orderly
  | true =>
      rw [removeDaemonInfo, if_pos rfl, takenBy_eq_nil hauthor, List.append_nil]
      apply orderly.cleared
      intro other
      by_cases hother : other = process
      · rw [hother]
        exact (congrArg Stage.holding (Function.update_self ..)).trans hfree
      · exact (congrArg Stage.holding (Function.update_of_ne hother ..)).trans
          (vacant other hother)

end Invariant

/-! ## One step -/

section Step

variable {world : World Process}

/-- A daemon that is probed is found alive. -/
theorem pidAlive_of_live [Fintype Process] {process : Process} {pid : UInt32}
    (live : (world.stage process).live = true) (hpid : world.pid process = pid) (foreign : Bool) :
    world.pidAlive pid foreign = true := by
  subst hpid
  exact decide_eq_true ⟨(world.pid process).2, .inr ⟨process, live, rfl⟩⟩

theorem holding_ensureSingleInstance (raw : Option (Option DaemonInfo)) :
    (ensureSingleInstance raw).holding = false := by
  cases raw with
  | none => rfl
  | some info => cases info <;> rfl

variable [DecidableEq Process]

/-- Reading `daemon.json` while no other daemon starts up. -/
theorem Orderly.read (orderly : world.Orderly) {process : Process}
    (hstage : world.stage process = .starting)
    (halone : ∀ other, other ≠ process → (world.stage other).inStartUp = false) :
    (world.move process (ensureSingleInstance (world.daemonFile.map Entry.info))).Orderly := by
  apply orderly.move
  · cases hfile : world.daemonFile with
    | none =>
        apply orderly.vacant_of_unnamed process
        intro entry hentry
        rw [hfile] at hentry
        cases hentry
    | some entry =>
        obtain ⟨info, author⟩ := entry
        cases info with
        | none =>
            have hunnamed : ∀ entry, world.daemonFile = some entry → entry.info = none := by
              intro entry hentry
              rw [hfile, Option.some.injEq] at hentry
              rw [← hentry]
            exact ⟨hunnamed, orderly.vacant_of_unnamed process hunnamed⟩
        | some info =>
            refine ⟨?_, ?_⟩
            · intro entry hentry
              rw [hfile, Option.some.injEq] at hentry
              rw [← hentry]
            · intro other _ hheld
              obtain ⟨held, hentry, hpid⟩ := orderly.held hheld
              rw [hfile, Option.some.injEq, Entry.mk.injEq, Option.some.injEq] at hentry
              rw [hentry.1, hpid]
  · intro hholding
    rw [holding_ensureSingleInstance] at hholding
    cases hholding
  · exact fun _ => halone
  · intro hpast
    rw [hstage] at hpast
    cases hpast
  · rw [hstage]
    exact Stage.noConfusion

/-- Writing the temporary file. -/
theorem Orderly.write (orderly : world.Orderly) {process : Process} {port : UInt16}
    (hstage : world.stage process = .bound port) :
    (World.move { world with tmpFile := some ⟨some ⟨port, world.pid process⟩, some process⟩ }
      process .staged).Orderly := by
  have hinside : (world.stage process).inStartUp = true := by
    rw [hstage]
    rfl
  have hvacant : world.Fits process (.bound port) := hstage ▸ orderly.fits process
  have hwritten : Orderly
      { world with tmpFile := some ⟨some ⟨port, world.pid process⟩, some process⟩ } := by
    refine ⟨?_, orderly.alone, orderly.authored, orderly.untaken⟩
    intro other
    have hfits := orderly.fits other
    change Fits _ other (world.stage other)
    cases hother : world.stage other <;> rw [hother] at hfits
    case staged =>
      have hsame := orderly.alone other process (by rw [hother]; rfl) hinside
      rw [hsame, hstage] at hother
      cases hother
    all_goals exact hfits
  exact hwritten.proceed hinside rfl ⟨⟨_, rfl, rfl⟩, hvacant⟩

/-- Renaming it makes it the entry of the daemon that wrote it. -/
theorem Orderly.rename (orderly : world.Orderly) {process : Process} {entry : Entry Process}
    (hstage : world.stage process = .staged) (htmp : world.tmpFile = some entry) :
    (World.move { world with daemonFile := some entry, tmpFile := none } process
      .serving).Orderly := by
  obtain ⟨⟨info, hown, hpid⟩, hvacant⟩ : world.Fits process .staged :=
    hstage ▸ orderly.fits process
  rw [htmp, Option.some.injEq] at hown
  subst hown
  have hself : Function.update world.stage process .serving process = .serving :=
    Function.update_self ..
  have hothers : ∀ {other}, other ≠ process →
      Function.update world.stage process .serving other = world.stage other :=
    fun hother => Function.update_of_ne hother ..
  have hinside : (world.stage process).inStartUp = true := by
    rw [hstage]
    rfl
  constructor
  · intro other
    by_cases hother : other = process
    · subst hother
      change Fits _ other (Function.update world.stage other .serving other)
      rw [hself]
      exact ⟨info, rfl, hpid⟩
    · apply fits_of_outside
      · exact (congrArg Stage.inStartUp (hothers hother)).trans
          (orderly.outside_of_inStartUp hinside hother)
      · exact (congrArg Stage.holding (hothers hother)).trans (hvacant other hother)
  · intro first second hfirst
    exfalso
    change (Function.update world.stage process .serving first).inStartUp = true at hfirst
    by_cases hone : first = process
    · rw [hone, hself] at hfirst
      cases hfirst
    · rw [hothers hone, orderly.outside_of_inStartUp hinside hone] at hfirst
      cases hfirst
  · intro other author hentry hauthor
    cases hentry
    cases hauthor
    exact ⟨congrArg Stage.pastStartUp hself, info, rfl, hpid⟩
  · exact orderly.untaken

variable [Fintype Process]

/-- Probing the process that the entry names. -/
theorem Orderly.probe (orderly : world.Orderly) {process : Process} {info : DaemonInfo}
    (hstage : world.stage process = .probing info) (foreign : Bool) :
    (world.move process (refuseAlive info (world.pidAlive info.pid foreign))).Orderly := by
  obtain ⟨hfile, hothers⟩ : world.Fits process (.probing info) := hstage ▸ orderly.fits process
  cases halive : world.pidAlive info.pid foreign with
  | true => exact orderly.leave rfl rfl rfl (by rw [hstage]; rfl)
  | false =>
      have hdead : ∀ {other}, world.pid other = info.pid → (world.stage other).live = false := by
        intro other hpid
        apply Bool.eq_false_iff.mpr
        intro hlive
        rw [pidAlive_of_live hlive hpid] at halive
        cases halive
      apply orderly.proceed (by rw [hstage]; rfl) rfl
      refine ⟨?_, ?_⟩
      · intro entry author hentry hauthor
        obtain ⟨hpast, held, hheld, hpid⟩ := orderly.authored entry author hentry hauthor
        rw [hfile entry hentry, Option.some.injEq] at hheld
        exact Stage.eq_gone_of_not_live hpast (hdead (by rw [hheld, hpid]))
      · intro other hother
        apply Bool.eq_false_iff.mpr
        intro hheld
        have hlive := Stage.live_of_holding hheld
        rw [hdead (hothers other hother hheld)] at hlive
        cases hlive

/-- A removal deprives nobody: what was read names no daemon that is alive, and what is
removed on shutdown is the daemon's own. -/
theorem Orderly.after_remove (orderly : world.Orderly) (process : Process) (removes : Bool) :
    (world.after (.remove process removes)).Orderly := by
  simp only [World.after]
  split
  · next hstage =>
      obtain ⟨hfile, hvacant⟩ : world.Fits process .corrupt := hstage ▸ orderly.fits process
      have hclear : world.Fits process .clear := hvacant
      apply (orderly.proceed (by rw [hstage]; rfl) rfl hclear).remove removes rfl hvacant
      intro entry author hentry hauthor
      obtain ⟨_, info, hinfo, _⟩ := orderly.authored entry author hentry hauthor
      rw [hfile entry hentry] at hinfo
      cases hinfo
  · next hstage =>
      obtain ⟨hfile, hvacant⟩ : world.Fits process .stale := hstage ▸ orderly.fits process
      have hclear : world.Fits process .clear := hvacant
      apply (orderly.proceed (by rw [hstage]; rfl) rfl hclear).remove removes rfl hvacant
      exact fun entry author hentry hauthor => .inr (hfile entry author hentry hauthor)
  · next failure hstage =>
      have hholding : (world.stage process).holding = true := by
        rw [hstage]
        rfl
      obtain ⟨info, hfile, _⟩ := orderly.held hholding
      apply (orderly.leave rfl rfl rfl (by rw [hstage]; rfl)).remove
        removes rfl
      · intro other hother
        exact Bool.eq_false_iff.mpr fun hheld => hother (orderly.holder_unique hheld hholding)
      · intro entry author hentry hauthor
        rw [hfile, Option.some.injEq] at hentry
        rw [← hentry] at hauthor
        exact .inl (Option.some.inj hauthor).symm
  · exact orderly

/-- Every step of a daemon that starts alone keeps the order. -/
theorem Orderly.after (orderly : world.Orderly) {event : Event Process}
    (alone : world.StartsAlone event) : (world.after event).Orderly := by
  cases event with
  | start process =>
      simp only [World.after]
      split
      · next hstage =>
          have hfits : world.Fits process .starting := trivial
          apply orderly.move hfits Bool.noConfusion Bool.noConfusion
          · rw [hstage]
            exact Bool.noConfusion
          · rw [hstage]
            exact Stage.noConfusion
      · exact orderly
  | read process failure =>
      simp only [World.after]
      split
      · next hstage => exact orderly.read hstage (alone hstage)
      · next hstage => exact orderly.leave rfl rfl rfl (by rw [hstage]; rfl)
      · exact orderly
  | probe process foreign =>
      simp only [World.after]
      split
      · next hstage => exact orderly.probe hstage foreign
      · exact orderly
  | remove process removes => exact orderly.after_remove process removes
  | bind process port failure =>
      simp only [World.after]
      split
      · next hstage =>
          have hclear : world.Fits process .clear := hstage ▸ orderly.fits process
          have hbound : world.Fits process (.bound port) := hclear
          exact orderly.proceed (by rw [hstage]; rfl) rfl hbound
      · next hstage => exact orderly.leave rfl rfl rfl (by rw [hstage]; rfl)
      · exact orderly
  | write process failure =>
      simp only [World.after]
      split
      · next hstage => exact orderly.write hstage
      · next hstage => exact orderly.leave rfl rfl rfl (by rw [hstage]; rfl)
      · exact orderly
  | rename process failure =>
      simp only [World.after]
      split
      · next hstage =>
          split
          · next htmp => exact orderly.rename hstage htmp
          · exact orderly.leave rfl rfl rfl (by rw [hstage]; rfl)
      · next hstage => exact orderly.leave rfl rfl rfl (by rw [hstage]; rfl)
      · exact orderly
  | stop process failure =>
      simp only [World.after]
      split
      · next hstage =>
          have hserving : world.Fits process .serving := hstage ▸ orderly.fits process
          have hstopping : world.Fits process (.stopping failure) := hserving
          apply orderly.move hstopping (fun _ => by rw [hstage]; rfl) Bool.noConfusion
            (fun _ => rfl)
          rw [hstage]
          exact Stage.noConfusion
      · exact orderly
  | exit process =>
      simp only [World.after]
      split
      · next hstage => exact orderly.leave rfl rfl rfl (by rw [hstage]; rfl)
      · exact orderly
  | kill process =>
      simp only [World.after]
      split_ifs with hlive
      · exact orderly.leave rfl rfl rfl hlive
      · exact orderly

/-! ## Start-up undisturbed -/

/-- What a daemon does to check that no other is running, with nothing failing. Steps that
its case does not need change nothing. -/
def check (process : Process) (foreign : Bool) : List (Event Process) :=
  [.read process none, .probe process foreign, .remove process true]

/-- What it does then, until it serves. -/
def takeSlot (process : Process) (port : UInt16) : List (Event Process) :=
  [.bind process port none, .write process none, .rename process none]

/-- After the check a daemon serves, with an entry of its own. -/
theorem foldl_takeSlot (world : World Process) {process : Process}
    (clear : world.stage process = .clear) (port : UInt16) :
    ((takeSlot process port).foldl World.after world).stage process = .serving ∧
      ((takeSlot process port).foldl World.after world).daemonFile =
        some ⟨some ⟨port, world.pid process⟩, some process⟩ := by
  simp [takeSlot, World.after, move, clear]

/-- A daemon that has returned does nothing more. -/
theorem foldl_takeSlot_of_ended (world : World Process) {process : Process}
    {failure : Option DaemonError} (ended : world.stage process = .ended failure)
    (port : UInt16) : (takeSlot process port).foldl World.after world = world := by
  simp [takeSlot, World.after, ended]

/-- The daemon that `daemon.json` names, if its process is alive. -/
def running (world : World Process) (foreign : Bool) : Option DaemonInfo :=
  (world.daemonFile.bind Entry.info).filter fun info => world.pidAlive info.pid foreign

/-- The check alone: it refuses exactly if a running daemon is named. -/
theorem foldl_check {process : Process} (starting : world.stage process = .starting)
    (foreign : Bool) :
    ((check process foreign).foldl World.after world).pid = world.pid ∧
      match world.running foreign with
      | some info =>
          ((check process foreign).foldl World.after world).stage process =
              .ended (some (.alreadyRunning info.pid info.port)) ∧
            ((check process foreign).foldl World.after world).daemonFile = world.daemonFile
      | none => ((check process foreign).foldl World.after world).stage process = .clear := by
  cases hfile : world.daemonFile with
  | none =>
      simp [check, World.after, starting, hfile, move, ensureSingleInstance, running]
  | some entry =>
      obtain ⟨info, author⟩ := entry
      cases info with
      | none =>
          simp [check, World.after, starting, hfile, move, ensureSingleInstance, running,
            removeDaemonInfo]
      | some info =>
          -- to read does not change who is alive
          have hsame : (world.move process (.probing info)).pidAlive info.pid foreign =
              world.pidAlive info.pid foreign := by
            have hlive : ∀ other, ((world.move process (.probing info)).stage other).live =
                (world.stage other).live := by
              intro other
              by_cases hother : other = process
              · rw [hother, starting]
                change (Function.update world.stage process (.probing info) process).live = _
                rw [Function.update_self]
                rfl
              · exact congrArg Stage.live (Function.update_of_ne hother ..)
            simp only [pidAlive, hlive]
            rfl
          have hread : world.after (.read process none) = world.move process (.probing info) := by
            simp [World.after, starting, hfile, ensureSingleInstance]
          have hprobe : (world.move process (.probing info)).after (.probe process foreign) =
              (world.move process (.probing info)).move process
                (refuseAlive info (world.pidAlive info.pid foreign)) := by
            rw [← hsame]
            simp [World.after, move]
          simp only [check, List.foldl_cons, List.foldl_nil, hread, hprobe]
          cases halive : world.pidAlive info.pid foreign with
          | true =>
              have hrunning : world.running foreign = some info := by
                simp [running, hfile, Option.filter_some, halive]
              simp [hrunning, World.after, move, refuseAlive, hfile]
          | false =>
              have hrunning : world.running foreign = none := by
                simp [running, hfile, Option.filter_some, halive]
              simp [hrunning, World.after, move, refuseAlive, removeDaemonInfo]

/-- A daemon that starts undisturbed refuses if a running daemon is named, and leaves the
file alone; otherwise it serves, and the file names it. -/
theorem foldl_check_takeSlot {process : Process} (starting : world.stage process = .starting)
    (foreign : Bool) (port : UInt16) :
    let served := (check process foreign ++ takeSlot process port).foldl World.after world
    match world.running foreign with
    | some info =>
        served.stage process = .ended (some (.alreadyRunning info.pid info.port)) ∧
          served.daemonFile = world.daemonFile
    | none =>
        served.stage process = .serving ∧
          served.daemonFile = some ⟨some ⟨port, world.pid process⟩, some process⟩ := by
  obtain ⟨hpid, hchecked⟩ := foldl_check starting foreign
  simp only [List.foldl_append]
  cases hrunning : world.running foreign with
  | none =>
      rw [hrunning] at hchecked
      rw [← hpid]
      exact foldl_takeSlot _ hchecked port
  | some info =>
      rw [hrunning] at hchecked
      dsimp only at hchecked ⊢
      rw [foldl_takeSlot_of_ended _ hchecked.1]
      exact hchecked

/-! ## Whole runs -/

omit [DecidableEq Process] [Fintype Process] in
theorem orderly_start (pid : Process → {pid : UInt32 // pid ≠ 0})
    (daemonFile tmpFile : Option (Option DaemonInfo)) :
    (start pid daemonFile tmpFile).Orderly where
  fits _ := trivial
  alone _ _ hnever := nomatch hnever
  authored entry author hentry hauthor := by
    obtain ⟨info, _, rfl⟩ := Option.map_eq_some_iff.mp hentry
    cases hauthor
  untaken := rfl

/-- Whatever the files hold at first, and however the daemons' steps interleave, the
daemons are safe from each other if none reads `daemon.json` while another is between
reading and writing it. -/
theorem safe_of_startsAlone (pid : Process → {pid : UInt32 // pid ≠ 0})
    (daemonFile tmpFile : Option (Option DaemonInfo)) (events : List (Event Process))
    (alone : ∀ earlier event later, events = earlier ++ event :: later →
      (earlier.foldl World.after (start pid daemonFile tmpFile)).StartsAlone event) :
    (events.foldl World.after (start pid daemonFile tmpFile)).Safe := by
  have keeps : ∀ (world : World Process) (event : Event Process), world.Orderly →
      world.StartsAlone event → (world.after event).Orderly :=
    fun _ _ orderly halone => orderly.after halone
  exact (Transition.foldl_of_guarded keeps (orderly_start pid daemonFile tmpFile) alone).safe

instance decidableStartsAlone (world : World Process) (event : Event Process) :
    Decidable (world.StartsAlone event) :=
  match event with
  | .read process _ => inferInstanceAs (Decidable (world.stage process = .starting →
      ∀ other, other ≠ process → (world.stage other).inStartUp = false))
  | .start _ | .probe _ _ | .remove _ _ | .bind _ _ _ | .write _ _ | .rename _ _ | .stop _ _
  | .exit _ | .kill _ => .isTrue trivial

end Step

/-- The pids of two daemons. -/
def pids (process : Bool) : {pid : UInt32 // pid ≠ 0} :=
  match process with
  | false => ⟨501, by decide⟩
  | true => ⟨502, by decide⟩

/-- A daemon replaces a stale entry and serves; a second one refuses to start; the first
shuts down. -/
def turns : List (Event Bool) :=
  [.start false, .read false none, .probe false false, .remove false true,
    .bind false 7001 none, .write false none, .rename false none,
    .start true, .read true none, .probe true false, .exit true,
    .stop false none, .remove false true, .exit false]

theorem safe_turns :
    (turns.foldl World.after (start pids (some (some ⟨7000, 500⟩)) none)).Safe := by
  apply safe_of_startsAlone
  rw [Transition.forall_splits_iff (p := fun earlier event =>
    (earlier.foldl World.after (start pids (some (some ⟨7000, 500⟩)) none)).StartsAlone event)]
  decide +kernel

/-- Both daemons read before either has written. -/
def race : List (Event Bool) :=
  [.start false, .start true, .read false none, .read true none,
    .bind false 7001 none, .bind true 7002 none,
    .write false none, .rename false none, .write true none, .rename true none]

/-- Then both serve, and when the first shuts down it removes the entry of the second. -/
theorem race_not_safe :
    let world := race.foldl World.after (start pids none none)
    ¬ world.Safe ∧ world.stage false = .serving ∧ world.stage true = .serving ∧
      ((world.after (.stop false none)).after (.remove false true)).taken = [(false, true)] := by
  have hfirst : (race.foldl World.after (start pids none none)).stage false = .serving := by
    decide +kernel
  have hsecond : (race.foldl World.after (start pids none none)).stage true = .serving := by
    decide +kernel
  refine ⟨?_, hfirst, hsecond, by decide +kernel⟩
  intro safe
  cases safe.1 false true hfirst hsecond

end World

end Mlink.Daemon.Lifecycle
