import BootConfig.Journal.Setup

/-!
# Logbooks

Notices are sent on channels, which the dots in their names put below one another. From the channel
that it is sent on a notice climbs to those above it, as far as they exist; the journal is that of
the root channel, so it is kept only of notices that come there.

* `Channels.reaches`: whether a notice comes from a channel to the root.
* `Logbook.step`: what happens when the journal is set up or a notice is sent.
* `Logbook.after`: the logbook after several steps, and what has been written.
-/

namespace BootConfig

/-! ## Channels -/

/-- The channels that exist, because they have been asked for, and what they have been asked since
the journal was last set up. -/
structure Channels where
  known : List String
  /-- Whether notices of a severity are of interest on a channel. -/
  answers : List ((String × Severity) × Bool)
deriving DecidableEq, Inhabited

namespace Channels

def initial : Channels := ⟨[Channel.root], []⟩

/-- Whether the search for a channel above comes to the root, from a name whose characters are given
from the last to the first. What stands in front of a dot is a name above; if there is such a
channel, the search goes on from it, and else behind one more character, even if that is a dot. -/
def climbs (cs : Channels) : List Char → Bool
  | '.' :: c :: rest =>
    let above := String.ofList (c :: rest).reverse
    above == Channel.root ||
      if cs.known.contains above then cs.climbs (c :: rest) else cs.climbs rest
  | _ :: rest => cs.climbs rest
  | [] => false

/-- Whether a notice comes from a channel to the root. -/
def reaches (cs : Channels) (channel : String) : Bool :=
  channel == Channel.root || cs.climbs channel.toList.reverse

/-- A channel exists as soon as it is asked for. -/
def know (cs : Channels) (channel : String) : Channels :=
  if cs.known.contains channel then cs else { cs with known := channel :: cs.known }

/-- The journal of what is sent on a channel. Notices that do not come to the root are treated as if
no journal had been set up. -/
def journal (cs : Channels) (j : Journal) (channel : String) : Journal :=
  if cs.reaches channel then j else Journal.initial

/-- Whether notices of a severity are of interest on a channel. The answer is kept until the journal
is set up again. -/
def ask (cs : Channels) (j : Journal) (channel : String) (s : Severity) : Bool × Channels :=
  match cs.answers.lookup (channel, s) with
  | some answer => (answer, cs)
  | none =>
    let answer := (cs.journal j channel).enabled s
    (answer, { cs with answers := ((channel, s), answer) :: cs.answers })

end Channels

/-! ## Logbooks -/

/-- A journal, the channels on which notices are sent, and the files that are written to. -/
structure Logbook where
  journal : Journal
  channels : Channels
  files : FileTree

namespace Logbook

/-- The logbook before the journal has been set up. -/
def begin (files : FileTree) : Logbook := ⟨Journal.initial, Channels.initial, files⟩

/-- What happens in a logbook. -/
inductive Step where
  | setUp (s : Journal.Settings)
  /-- A notice is sent on the channel for a name. -/
  | send (name : String) (severity : Severity) (module function message : String)
deriving DecidableEq, Inhabited

/-- What comes of a step. -/
inductive Result where
  | ready
  | refused (f : Journal.SetupFault)
  | sent (enabled : Bool)

/-- What a step comes to. -/
structure Outcome where
  logbook : Logbook
  texts : List (Stream × Text)
  result : Result

/-- Setting up the journal discards the answers of all channels, unless the level is unknown. -/
def setUp (b : Logbook) (m : Moment) (s : Journal.Settings) : Outcome :=
  let o := b.journal.setUp m b.files s
  let channels := match Journal.level s.level with
    | .ok _ => { b.channels with answers := [] }
    | .error _ => b.channels
  let result := match o.fault with
    | some f => .refused f
    | none => .ready
  ⟨⟨o.journal, channels, o.delivery.files⟩, o.delivery.texts, result⟩

def send (b : Logbook) (m : Moment) (n : Notice) : Outcome :=
  let (enabled, channels) :=
    (b.channels.know n.origin.channel).ask b.journal n.origin.channel n.severity
  let d := if enabled then (channels.journal b.journal n.origin.channel).publish m b.files n
    else ⟨b.files, []⟩
  ⟨⟨b.journal, channels, d.files⟩, d.texts, .sent enabled⟩

def step (b : Logbook) (m : Moment) : Step → Outcome
  | .setUp s => b.setUp m s
  | .send name severity module function message =>
    b.send m ⟨severity, ⟨Channel.ofName name, module, function⟩, message⟩

/-- The logbook after several steps, and what they have written to streams. -/
def after : Logbook → List (Moment × Step) → Logbook × List (Stream × Text)
  | b, [] => (b, [])
  | b, (m, e) :: rest =>
    let o := b.step m e
    let last := o.logbook.after rest
    (last.1, o.texts ++ last.2)

end Logbook

end BootConfig
