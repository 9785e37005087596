import Cobblestone.Plugin.Registries

namespace Cobblestone.Plugin

open Lib Cobblestone.Task

inductive PluginError where
  | scopeClosed
  | registry (error : RegistryError)
  | thrown (message : String)
  | logger (message : String)
  | unreadableFile (file : String)
  | alreadyLoaded (name : String)
  | classMissing (file name : String)
  | notPlugin (name : String)
deriving DecidableEq, Repr

def PluginError.message : PluginError → String
  | .scopeClosed => "plugin scope is closed"
  | .registry error => error.message
  | .thrown message => message
  | .logger message => message
  | .unreadableFile file => "plugin file is not a readable PHP file: " ++ file
  | .alreadyLoaded name => "plugin already loaded: " ++ name
  | .classMissing file name => "plugin class was not defined by " ++ file ++ ": " ++ name
  | .notPlugin name => "plugin class must implement Cobblestone\\Plugin\\Plugin: " ++ name

-- The object a registration returned: a Subscription, a CommandBinding or a TaskHandle.
structure Handle where
  target : Registration
  cancelled : Bool
deriving DecidableEq, Repr

inductive Owned where
  | handle (index : Nat)
  | callback (id : Nat)
deriving DecidableEq, Repr

-- `handles` and `callbacks` record what was registered, `ran` which callbacks ran, in order.
structure PluginScope where
  cleanup : List Owned
  closed : Bool
  handles : List Handle
  callbacks : Nat
  ran : List Nat
deriving DecidableEq, Repr

def PluginScope.new : PluginScope := ⟨[], false, [], 0, []⟩

def PluginScope.own (scope : PluginScope) (owned : Owned) : PluginScope :=
  { scope with cleanup := scope.cleanup ++ [owned] }

def PluginScope.hand (scope : PluginScope) (target : Registration) : PluginScope :=
  { scope.own (.handle scope.handles.length) with
    handles := scope.handles ++ [⟨target, false⟩] }

structure Workspace where
  registries : Registries
  scope : PluginScope

abbrev Effect := Workspace → Option PluginError × Workspace

abbrev Attempt := Registries → Except RegistryError (Registration × Registries)

namespace Attempt

def on (event : String) : Attempt := fun r =>
  (r.events.listen event).map fun (id, events) => (.listener event id, { r with events := events })

def command (root : Literal) : Attempt := fun r =>
  (r.commands.register root).map fun (id, commands) => (.command id, { r with commands := commands })

def after (delayTicks : Int) : Attempt := fun r =>
  match r.scheduler.schedule delayTicks with
  | .error error => .error (.scheduler error)
  | .ok scheduler => .ok (.task r.scheduler.nextTaskId, { r with scheduler := scheduler })

def every (intervalTicks : Int) : Attempt := fun r =>
  match r.scheduler.repeatTask intervalTicks with
  | .error error => .error (.scheduler error)
  | .ok scheduler => .ok (.task r.scheduler.nextTaskId, { r with scheduler := scheduler })

def task : Attempt := fun r =>
  .ok (.fiber r.scheduler.nextFiberId, { r with scheduler := r.scheduler.spawn })

end Attempt

namespace PluginScope

def register (attempt : Attempt) : Effect := fun w =>
  if w.scope.closed then (some .scopeClosed, w)
  else
    match attempt w.registries with
    | .error error => (some (.registry error), w)
    | .ok (target, registries) => (none, ⟨registries, w.scope.hand target⟩)

def on (event : String) : Effect := register (.on event)

def command (root : Literal) : Effect := register (.command root)

def after (delayTicks : Int) : Effect := register (.after delayTicks)

def every (intervalTicks : Int) : Effect := register (.every intervalTicks)

def task : Effect := register .task

def cleanupWith : Effect := fun w =>
  if w.scope.closed then (some .scopeClosed, w)
  else
    (none, { w with
      scope := { w.scope.own (.callback w.scope.callbacks) with
        callbacks := w.scope.callbacks + 1 } })

end PluginScope

def Workspace.cancel (w : Workspace) (index : Nat) : Workspace :=
  match w.scope.handles[index]? with
  | none => w
  | some handle =>
    if handle.cancelled then w
    else
      { registries := w.registries.release handle.target
        scope := { w.scope with
          handles := w.scope.handles.set index { handle with cancelled := true } } }

-- What plugin code can do with its scope and with the handles it got from it.
inductive Action where
  | on (event : String)
  | command (root : Literal)
  | after (delayTicks : Int)
  | every (intervalTicks : Int)
  | task
  | cleanup
  | cancel (index : Nat)
deriving DecidableEq, Repr

def Action.run : Action → Effect
  | .on event => PluginScope.on event
  | .command root => PluginScope.command root
  | .after delayTicks => PluginScope.after delayTicks
  | .every intervalTicks => PluginScope.every intervalTicks
  | .task => PluginScope.task
  | .cleanup => PluginScope.cleanupWith
  | .cancel index => fun w => (none, w.cancel index)

-- Each step says whether the plugin catches what it throws; `throws` is the plugin's own exception at the end.
structure Script where
  steps : List (Action × Bool)
  throws : Option String
deriving DecidableEq, Repr

def runSteps : List (Action × Bool) → Effect
  | [], w => (none, w)
  | (action, catches) :: rest, w =>
    match action.run w with
    | (none, w') => runSteps rest w'
    | (some error, w') => if catches then runSteps rest w' else (some error, w')

def Script.run (script : Script) : Effect := fun w =>
  match runSteps script.steps w with
  | (some error, w') => (some error, w')
  | (none, w') => (script.throws.map .thrown, w')

def Workspace.ranCallback (w : Workspace) (id : Nat) : Workspace :=
  { w with scope := { w.scope with ran := w.scope.ran ++ [id] } }

def Owned.run (callbacks : Nat → Script) : Owned → Effect
  | .handle index => fun w => (none, w.cancel index)
  | .callback id => fun w => (callbacks id).run (w.ranCallback id)

def closeLoop (callbacks : Nat → Script) : List Owned → Effect
  | [], w => (none, w)
  | owned :: rest, w =>
    match owned.run callbacks w with
    | (failure, w') =>
      match closeLoop callbacks rest w' with
      | (later, w'') => (failure.or later, w'')

def PluginScope.close (callbacks : Nat → Script) : Effect := fun w =>
  if w.scope.closed then (none, w)
  else
    match closeLoop callbacks w.scope.cleanup.reverse
      { w with scope := { w.scope with closed := true } } with
    | (failure, w') => (failure, { w' with scope := { w'.scope with cleanup := [] } })

-- The exception a log call lets out, if any: the handlers behind a logger are not the server's own.
abbrev Logger := String → Option String

def Logger.call (logger : Logger) (message : String) : Option PluginError :=
  (logger message).map .logger

def Logger.silent : Logger := fun _ => none

-- What load() finds in the file, and what the plugin's enable() does.
structure PluginFile where
  path : String
  readable : Bool
  required : Option String
  defines : Bool
  constructed : Option String
  implements : Bool
  enable : Script
deriving DecidableEq, Repr

structure Host where
  registries : Registries
  scopes : List PluginScope
  plugins : OrderedMap String Nat

namespace Host

def new : Host := ⟨.new, [], .empty⟩

def workspace (g : Host) (i : Nat) : Workspace := ⟨g.registries, g.scopes.getD i .new⟩

def put (g : Host) (i : Nat) (w : Workspace) : Host :=
  { g with registries := w.registries, scopes := g.scopes.set i w.scope }

def opened (g : Host) (w : Workspace) : Host :=
  { g with registries := w.registries, scopes := g.scopes ++ [w.scope] }

variable (logger : Logger) (callbacks : Nat → Nat → Script)

def load (name : String) (file : PluginFile) (g : Host) : Option PluginError × Host :=
  if file.readable = false then (some (.unreadableFile file.path), g)
  else if (g.plugins.get? name).isSome then (some (.alreadyLoaded name), g)
  else
    match file.required with
    | some message => (some (.thrown message), g)
    | none =>
      if file.defines = false then (some (.classMissing file.path name), g)
      else
        match file.constructed with
        | some message => (some (.thrown message), g)
        | none =>
          if file.implements = false then (some (.notPlugin name), g)
          else
            match file.enable.run ⟨g.registries, .new⟩ with
            | (some error, w) =>
              match PluginScope.close (callbacks g.scopes.length) w with
              | (none, w') => (some error, g.opened w')
              | (some _, w') =>
                ((logger.call "Plugin enable rollback failed").or (some error), g.opened w')
            | (none, w) =>
              (logger.call "Enabled plugin",
                { g.opened w with plugins := g.plugins.set name g.scopes.length })

def disable (i : Nat) (script : Script) (g : Host) : Option PluginError × Host :=
  match script.run (g.workspace i) with
  | (failure, w) =>
    match failure.bind fun _ => logger.call "Plugin disable failed" with
    | some error => (some error, g.put i w)
    | none =>
      match PluginScope.close (callbacks i) w with
      | (some error, w') =>
        ((logger.call "Plugin scope cleanup failed").or (failure.or (some error)), g.put i w')
      | (none, w') =>
        match failure with
        | some error => (some error, g.put i w')
        | none => (logger.call "Disabled plugin", g.put i w')

def unload (name : String) (script : Script) (g : Host) : Option PluginError × Host :=
  match g.plugins.get? name with
  | none => (none, g)
  | some i => disable logger callbacks i script { g with plugins := g.plugins.unset name }

def shutdownLoop (scripts : String → Script) : List String → Host → Option PluginError × Host
  | [], g => (none, g)
  | name :: rest, g =>
    match unload logger callbacks name (scripts name) g with
    | (failure, g') =>
      match shutdownLoop scripts rest g' with
      | (later, g'') => (failure.or later, g'')

def shutdown (scripts : String → Script) (g : Host) : Option PluginError × Host :=
  shutdownLoop logger callbacks scripts g.plugins.keys.reverse g

end Host

-- What happens to the registries between the loader's calls, by other code or by the tick loop.
inductive Outside : Registries → Registries → Prop where
  | listen {r : Registries} {event : String} {id : Nat} {events : Dispatcher}
      (h : r.events.listen event = .ok (id, events)) : Outside r { r with events := events }
  | removeListener {r : Registries} (event : String) (id : Nat) :
      Outside r { r with events := (r.events.remove event id).2 }
  | dispatch {r : Registries} (isA : String → String → Bool) (event : String) :
      Outside r { r with events := (r.events.resolvedListeners isA event).2 }
  | registerCommand {r : Registries} {root : Literal} {id : Nat} {commands : CommandTree}
      (h : r.commands.register root = .ok (id, commands)) :
      Outside r { r with commands := commands }
  | removeCommand {r : Registries} (id : Nat) :
      Outside r { r with commands := (r.commands.remove id).2 }
  | scheduler {r : Registries} {control : Control} {events : List Event} {m : Machine}
      (h : Task.Step ⟨r.scheduler, control⟩ events m) :
      Outside r { r with scheduler := m.scheduler }

inductive HostStep (logger : Logger) (callbacks : Nat → Nat → Script) : Host → Host → Prop where
  | load {g : Host} (name : String) (file : PluginFile) :
      HostStep logger callbacks g (g.load logger callbacks name file).2
  | unload {g : Host} (name : String) (script : Script) :
      HostStep logger callbacks g (g.unload logger callbacks name script).2
  | shutdown {g : Host} (scripts : String → Script) :
      HostStep logger callbacks g (g.shutdown logger callbacks scripts).2
  | act {g : Host} {i : Nat} (hi : i < g.scopes.length) (script : Script) :
      HostStep logger callbacks g (g.put i (script.run (g.workspace i)).2)
  | outside {g : Host} {registries : Registries} (h : Outside g.registries registries) :
      HostStep logger callbacks g { g with registries := registries }

def HostReachable (logger : Logger) (callbacks : Nat → Nat → Script) (g : Host) : Prop :=
  Relation.ReflTransGen (HostStep logger callbacks) .new g

end Cobblestone.Plugin
