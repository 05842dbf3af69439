import HedgedForecast.Clock.Board
import HedgedForecast.Proofs.Arrays
import HedgedForecast.Proofs.Simulation
import Mathlib.Data.List.Nodup
import Mathlib.Logic.Relation

/-! # The forest of deadlines

Deadlines are opened, derived from one another and cancelled, in any order and while time passes. The deeds are kept as
they are done, and they alone say which scope was made within which and which deadline takes its instant from which.
The two run along different edges: a deadline that shares a given scope takes its instant from one deadline and its
scope from another. A deadline is cancelled exactly if some deed cancelled its scope or one around it, whichever came
first, the deed or the scope.
-/

namespace HedgedForecast.Board

/-- Something done to deadlines. -/
inductive Deed where
  /-- A deadline in a scope of its own. -/
  | opened (made : Deadline)
  | child (source made : Deadline)
  /-- A deadline that is not to be later than the bound. -/
  | tightened (source : Deadline) (bound : Nat) (made : Deadline)
  /-- A deadline in the scope of another one. -/
  | shared (source scope made : Deadline)
  | cancelled (target : Deadline)

/-- What an action does, and to which deadlines. -/
def deed? (board : Board) (action : Action) : Option Deed :=
  let after := board.apply action
  match action with
  | .after name _ | .detached name _ => (after.find? name).map .opened
  | .child name source => do return .child (← board.find? source) (← after.find? name)
  | .tighten name source limit => do
    return .tightened (← board.find? source) (board.clock.now + limit) (← after.find? name)
  | .withToken name source scope => do
    return .shared (← board.find? source) (← board.find? scope) (← after.find? name)
  | .cancel name => (board.find? name).map .cancelled

/-- The name that an action puts a deadline under. -/
def Action.makes? : Action → Option String
  | .after name _ | .detached name _ | .child name _ | .tighten name _ _ | .withToken name _ _ => some name
  | .cancel _ => none

/-- What may happen to a board. -/
inductive Event where
  | act (action : Action)
  | sleep (time : Nat)

/-- A board and all that was done on it. -/
structure Chronicle where
  board : Board := {}
  deeds : List Deed := []

/-- The chronicle goes on. -/
def Chronicle.follow (chronicle : Chronicle) : Event → Chronicle
  | .act action => ⟨chronicle.board.apply action, chronicle.deeds ++ (chronicle.board.deed? action).toList⟩
  | .sleep time => { chronicle with board := chronicle.board.sleep time }

/-- The chronicle of a new board. -/
def chronicle (events : List Event) : Chronicle :=
  events.foldl Chronicle.follow {}

namespace Deed

/-- The deadline that was made. -/
def made? : Deed → Option Deadline
  | opened made | child _ made | tightened _ _ made | shared _ _ made => some made
  | cancelled _ => none

/-- The scope that was made. -/
def scope? : Deed → Option Token
  | opened made | child _ made | tightened _ _ made => some made.token
  | shared .. | cancelled _ => none

/-- All deadlines that had to do with it. -/
def parties : Deed → List Deadline
  | opened made => [made]
  | child source made | tightened source _ made => [source, made]
  | shared source scope made => [source, scope, made]
  | cancelled target => [target]

/-- How the deadlines of a deed are related. -/
def Relates : Deed → Prop
  | opened made => ∃ number, made.token.lineage = [number]
  | child source made =>
    made.instant = source.instant ∧ ∃ number, made.token.lineage = number :: source.token.lineage
  | tightened source bound made =>
    made.instant = min source.instant bound ∧ ∃ number, made.token.lineage = number :: source.token.lineage
  | shared source scope made => made.instant = source.instant ∧ made.token = scope.token
  | cancelled _ => True

end Deed

section

variable (deeds : List Deed)

/-- The deadline was made. -/
def Made (deadline : Deadline) : Prop :=
  ∃ deed ∈ deeds, deed.made? = some deadline

/-- The scopes that were made, in their order. -/
def created : List Token :=
  deeds.filterMap Deed.scope?

/-- A scope was made within another one. -/
inductive Inner : Token → Token → Prop
  | child {source made : Deadline} (done : .child source made ∈ deeds) : Inner made.token source.token
  | tightened {source made : Deadline} {bound : Nat} (done : .tightened source bound made ∈ deeds) :
      Inner made.token source.token

/-- A scope is the other one or lies within it. -/
def Within : Token → Token → Prop :=
  Relation.ReflTransGen (Inner deeds)

/-- A deadline takes its instant from another one. -/
inductive Derived : Deadline → Deadline → Prop
  | child {source made : Deadline} (done : .child source made ∈ deeds) : Derived made source
  | tightened {source made : Deadline} {bound : Nat} (done : .tightened source bound made ∈ deeds) :
      Derived made source
  | shared {source scope made : Deadline} (done : .shared source scope made ∈ deeds) : Derived made source

end

/-- The action is done: it has its deed, and what it makes has its name. -/
structure Does (board : Board) (action : Action) (deed : Deed) : Prop where
  noted : board.deed? action = some deed
  named : ∀ name, action.makes? = some name → (board.apply action).find? name = deed.made?

/-- Whatever is asked of the board is done, if the deadlines that it is asked of are there. -/
structure Obeys (board : Board) : Prop where
  after : ∀ name timeout, ∃ made, board.Does (.after name timeout) (.opened made) ∧
    made.instant = board.clock.now + timeout
  detached : ∀ name limit, ∃ made, board.Does (.detached name limit) (.opened made) ∧
    made.instant = board.clock.now + limit.getD Deadline.unboundedTime
  child : ∀ name origin source, board.find? origin = some source →
    ∃ made, board.Does (.child name origin) (.child source made)
  tighten : ∀ name origin limit source, board.find? origin = some source →
    ∃ made, board.Does (.tighten name origin limit) (.tightened source (board.clock.now + limit) made)
  withToken : ∀ name origin other source scope, board.find? origin = some source → board.find? other = some scope →
    ∃ made, board.Does (.withToken name origin other) (.shared source scope made)
  cancel : ∀ name target, board.find? name = some target → board.Does (.cancel name) (.cancelled target)
  /-- Nothing happens to other deadlines. -/
  others : ∀ action name, action.makes? ≠ some name → (board.apply action).find? name = board.find? name
  passes : ∀ time, (board.sleep time).clock.now = board.clock.now + time

/-- What the deeds say about a board. -/
structure Grown (board : Board) (deeds : List Deed) : Prop where
  obeys : board.Obeys
  /-- All deadlines there are were made. -/
  listed : ∀ name deadline, board.find? name = some deadline → Made deeds deadline
  /-- So were all that anything was done to. -/
  known : ∀ deed ∈ deeds, ∀ deadline ∈ deed.parties, Made deeds deadline
  /-- No scope is made twice. -/
  nodup : (created deeds).Nodup
  /-- A deadline is cancelled exactly if its scope, or one that it lies within, was cancelled through some deadline. -/
  cancelled_iff : ∀ deadline, Made deeds deadline → (deadline.isCancelled board.clock = true ↔
    ∃ target, .cancelled target ∈ deeds ∧ Within deeds deadline.token target.token)
  /-- Cancelling a deadline reaches those within its scope and no others. -/
  reached : ∀ name target, board.find? name = some target → ∀ deadline, Made deeds deadline →
    (deadline.isCancelled (board.apply (.cancel name)).clock = true ↔
      deadline.isCancelled board.clock = true ∨ Within deeds deadline.token target.token)
  /-- A scope does not lie within one that was made within it. -/
  parent : ∀ inner outer, Inner deeds inner outer → ¬Within deeds outer inner
  /-- Nor do scopes that were made within the same one lie within each other. -/
  sibling : ∀ inner other outer, Inner deeds inner outer → Inner deeds other outer → inner ≠ other →
    ¬Within deeds inner other
  /-- Nothing lies within two scopes that were opened on their own. -/
  separate : ∀ first second token, .opened first ∈ deeds → .opened second ∈ deeds →
    Within deeds token first.token → Within deeds token second.token → first.token = second.token
  child : ∀ source made, .child source made ∈ deeds → made.instant = source.instant
  tightened : ∀ source bound made, .tightened source bound made ∈ deeds → made.instant = min source.instant bound
  shared : ∀ source scope made, .shared source scope made ∈ deeds →
    made.instant = source.instant ∧ made.token = scope.token
  /-- However often a deadline is derived, it does not get later. -/
  chain : ∀ start last, Relation.ReflTransGen (Derived deeds) last start → last.instant ≤ start.instant

section Actions

variable {board : Board} {deeds : List Deed}

theorem find?_put (board : Board) (name : String) (deadline : Deadline) (clock : Clock) :
    (board.put name deadline clock).find? name = some deadline := by
  have others : (board.deadlines.filter (·.1 != name)).lookup name = none := by
    rw [List.lookup_eq_none_iff]
    intro entry member
    simpa [bne_comm] using (List.mem_filter.mp member).2
  rw [find?, put, List.lookup_append, others, List.lookup_cons_self, Option.none_or]

theorem find?_put_of_ne {name other : String} (different : name ≠ other) (deadline : Deadline) (clock : Clock) :
    (board.put name deadline clock).find? other = board.find? other := by
  have apart : (other == name) = false := beq_false_of_ne different.symm
  have kept (deadline : Deadline) : (other != name) = true := bne_iff_ne.mpr different.symm
  rw [find?, put, List.lookup_append, lookup_filter kept, List.lookup_cons, apart, List.lookup_nil, Option.or_none]
  rfl

theorem mem_of_find? {name : String} {deadline : Deadline} (found : board.find? name = some deadline) :
    ∃ entry ∈ board.deadlines, entry.2 = deadline := by
  obtain ⟨before, after, same, _⟩ := List.lookup_eq_some_iff.mp found
  exact ⟨(name, deadline), by simp [same], rfl⟩

/-- What an action makes of a board, and the deed that is noted. -/
inductive Effect (board : Board) : Board → Option Deed → Prop
  | nothing : Effect board board none
  | opened (name : String) (instant : Nat) :
      Effect board (board.put name ⟨instant, board.clock.freshToken.1⟩ board.clock.freshToken.2)
        (some (.opened ⟨instant, board.clock.freshToken.1⟩))
  | child (name : String) {origin : String} {source : Deadline} (found : board.find? origin = some source) :
      Effect board (board.put name (source.child board.clock).1 (board.clock.childToken source.token).2)
        (some (.child source (source.child board.clock).1))
  | tightened (name : String) {origin : String} {source : Deadline} (limit : Nat)
      (found : board.find? origin = some source) :
      Effect board (board.put name (source.tighten board.clock limit).1 (board.clock.childToken source.token).2)
        (some (.tightened source (board.clock.now + limit) (source.tighten board.clock limit).1))
  | shared (name : String) {origin other : String} {source scope : Deadline} (found : board.find? origin = some source)
      (found' : board.find? other = some scope) :
      Effect board (board.put name (source.withToken scope.token) board.clock)
        (some (.shared source scope (source.withToken scope.token)))
  | cancelled {name : String} {target : Deadline} (found : board.find? name = some target) :
      Effect board { board with clock := board.clock.cancel target.token } (some (.cancelled target))

theorem apply_child (name : String) {origin : String} {source : Deadline} (found : board.find? origin = some source) :
    board.apply (.child name origin) =
      board.put name (source.child board.clock).1 (board.clock.childToken source.token).2 := by
  simp only [apply, found]
  rfl

theorem apply_tighten (name : String) {origin : String} {source : Deadline} (limit : Nat)
    (found : board.find? origin = some source) : board.apply (.tighten name origin limit) =
      board.put name (source.tighten board.clock limit).1 (board.clock.childToken source.token).2 := by
  simp only [apply, found]
  rfl

theorem apply_withToken (name : String) {origin other : String} {source scope : Deadline}
    (found : board.find? origin = some source) (found' : board.find? other = some scope) :
    board.apply (.withToken name origin other) = board.put name (source.withToken scope.token) board.clock := by
  simp only [apply, found, found']

/-- What an action puts under its name is what its deed made. -/
theorem Does.of_put {action : Action} {name : String} {made : Deadline} {clock : Clock} {deed : Deed}
    (applied : board.apply action = board.put name made clock) (makes : action.makes? = some name)
    (own : deed.made? = some made) (noted : board.deed? action = some deed) : board.Does action deed where
  noted := noted
  named := by
    intro other same
    obtain rfl := Option.some.inj (makes.symm.trans same)
    rw [applied, find?_put, own]

theorem does_after (board : Board) (name : String) (timeout : Nat) :
    board.Does (.after name timeout) (.opened (Deadline.after board.clock timeout).1) :=
  .of_put rfl rfl rfl (congrArg (Option.map Deed.opened) (find?_put ..))

theorem does_detached (board : Board) (name : String) (limit : Option Nat) :
    board.Does (.detached name limit) (.opened (Deadline.detached board.clock limit).1) :=
  .of_put rfl rfl rfl (congrArg (Option.map Deed.opened) (find?_put ..))

theorem does_child (name : String) {origin : String} {source : Deadline} (found : board.find? origin = some source) :
    board.Does (.child name origin) (.child source (source.child board.clock).1) := by
  have applied := apply_child name found
  refine .of_put applied rfl rfl ?_
  simp only [deed?, applied, find?_put, found]
  rfl

theorem does_tighten (name : String) {origin : String} {source : Deadline} (limit : Nat)
    (found : board.find? origin = some source) : board.Does (.tighten name origin limit)
      (.tightened source (board.clock.now + limit) (source.tighten board.clock limit).1) := by
  have applied := apply_tighten name limit found
  refine .of_put applied rfl rfl ?_
  simp only [deed?, applied, find?_put, found]
  rfl

theorem does_withToken (name : String) {origin other : String} {source scope : Deadline}
    (found : board.find? origin = some source) (found' : board.find? other = some scope) :
    board.Does (.withToken name origin other) (.shared source scope (source.withToken scope.token)) := by
  have applied := apply_withToken name found found'
  refine .of_put applied rfl rfl ?_
  simp only [deed?, applied, find?_put, found, found']
  rfl

theorem effect_apply (board : Board) (action : Action) : Effect board (board.apply action) (board.deed? action) := by
  cases action with
  | after name timeout => exact (does_after board name timeout).noted ▸ .opened name _
  | detached name limit => exact (does_detached board name limit).noted ▸ .opened name _
  | child name origin =>
    cases found : board.find? origin with
    | none =>
      simp only [deed?, apply, found]
      exact .nothing
    | some source =>
      rw [apply_child name found, (does_child name found).noted]
      exact .child name found
  | tighten name origin limit =>
    cases found : board.find? origin with
    | none =>
      simp only [deed?, apply, found]
      exact .nothing
    | some source =>
      rw [apply_tighten name limit found, (does_tighten name limit found).noted]
      exact .tightened name limit found
  | withToken name origin other =>
    cases found : board.find? origin with
    | none =>
      simp only [deed?, apply, found]
      exact .nothing
    | some source =>
      cases found' : board.find? other with
      | none =>
        simp only [deed?, apply, found, found']
        exact .nothing
      | some scope =>
        rw [apply_withToken name found found', (does_withToken name found found').noted]
        exact .shared name found found'
  | cancel name =>
    cases found : board.find? name with
    | none =>
      simp only [deed?, apply, found]
      exact .nothing
    | some target =>
      simp only [deed?, apply, found]
      exact .cancelled found

/-- Nothing happens to a sleeping board that no cancellation waits for. -/
theorem sleep_of_idle (idle : board.dueCancellations = []) (time : Nat) :
    board.sleep time = { board with clock := board.clock.moveTo (board.clock.now + time) } := by
  have still (board : Board) (idle : board.dueCancellations = []) : board.turn = none := by
    rw [turn, idle]
    rfl
  have settled (board : Board) (idle : board.dueCancellations = []) (fuel : Nat) :
      simulation.settle fuel board = board := by
    cases fuel with
    | zero => rfl
    | succ fuel => simp only [Simulation.settle, show simulation.turn board = none from still board idle]
  have none : simulation.nextTimer board = none := by
    simp [simulation, idle, earliestAfter]
  have once : board.sleep time = simulation.runUntil 1 (board.clock.now + time) 1 board := by
    rw [sleep, idle]
    rfl
  simp only [once, Simulation.runUntil, settled board idle, none]
  exact settled (simulation.moveTo (board.clock.now + time) board) idle 1

theorem find?_apply_of_ne (board : Board) {action : Action} {name : String} (other : action.makes? ≠ some name) :
    (board.apply action).find? name = board.find? name := by
  have apart {own : String} (different : some own ≠ some name) : own ≠ name := fun same => different (congrArg some same)
  cases action with
  | after own timeout => exact find?_put_of_ne (apart other) ..
  | detached own limit => exact find?_put_of_ne (apart other) ..
  | child own origin =>
    cases found : board.find? origin with
    | none => simp only [apply, found]
    | some source => exact apply_child own found ▸ find?_put_of_ne (apart other) ..
  | tighten own origin limit =>
    cases found : board.find? origin with
    | none => simp only [apply, found]
    | some source => exact apply_tighten own limit found ▸ find?_put_of_ne (apart other) ..
  | withToken own origin scope =>
    simp only [apply]
    split
    · exact find?_put_of_ne (apart other) ..
    · rfl
  | cancel target =>
    simp only [apply]
    split <;> rfl

/-- A board without cancellations that are due later does what it is told. -/
theorem obeys_of_idle (idle : board.dueCancellations = []) : board.Obeys where
  after name timeout := ⟨_, does_after board name timeout, rfl⟩
  detached name limit := ⟨_, does_detached board name limit, rfl⟩
  child name _ _ found := ⟨_, does_child name found⟩
  tighten name _ limit _ found := ⟨_, does_tighten name limit found⟩
  withToken name _ _ _ _ found found' := ⟨_, does_withToken name found found'⟩
  cancel _ _ found := ⟨congrArg (Option.map Deed.cancelled) found, nofun⟩
  others _ _ other := find?_apply_of_ne board other
  passes time := by
    rw [sleep_of_idle idle]
    exact Nat.max_eq_right (Nat.le_add_right ..)

end Actions

section

variable {deeds : List Deed}

theorem Made.append {deadline : Deadline} (made : Made deeds deadline) (more : List Deed) :
    Made (deeds ++ more) deadline := by
  obtain ⟨deed, member, own⟩ := made
  exact ⟨deed, List.mem_append_left _ member, own⟩

theorem created_snoc (deeds : List Deed) (deed : Deed) :
    created (deeds ++ [deed]) = created deeds ++ deed.scope?.toList := by
  rw [created, List.filterMap_append]
  cases own : deed.scope? <;> simp [created, own]

end

/-- The board is as the deeds left it. -/
structure Tended (board : Board) (deeds : List Deed) : Prop where
  listed : ∀ entry ∈ board.deadlines, Made deeds entry.2
  known : ∀ deed ∈ deeds, ∀ deadline ∈ deed.parties, Made deeds deadline ∧ deadline.token ∈ created deeds
  relates : ∀ deed ∈ deeds, deed.Relates
  /-- The scopes that were made have the numbers that were issued, in their order. -/
  numbered : (created deeds).map (·.lineage.head?) = (List.range board.clock.scopes.issued).map some
  cancelled : ∀ number, number ∈ board.clock.scopes.cancelled ↔
    ∃ target, .cancelled target ∈ deeds ∧ target.token.lineage.head? = some number
  idle : board.dueCancellations = []

namespace Tended

variable {board next : Board} {deeds : List Deed}

theorem empty : Tended {} [] :=
  ⟨nofun, nofun, nofun, rfl, by simp, rfl⟩

theorem held (tended : Tended board deeds) {name : String} {deadline : Deadline}
    (found : board.find? name = some deadline) : Made deeds deadline := by
  obtain ⟨entry, member, rfl⟩ := mem_of_find? found
  exact tended.listed entry member

theorem token_of_made (tended : Tended board deeds) {deadline : Deadline} (made : Made deeds deadline) :
    deadline.token ∈ created deeds := by
  obtain ⟨deed, member, own⟩ := made
  refine (tended.known deed member deadline ?_).2
  cases deed <;> cases own <;> simp [Deed.parties]

/-- A deadline is made of deadlines that are there, in a new scope or in one that is there. -/
theorem put (tended : Tended board deeds) (name : String) {made : Deadline} {clock : Clock} {deed : Deed}
    (makes : deed.made? = some made) (relates : deed.Relates)
    (parties : ∀ deadline ∈ deed.parties, deadline = made ∨ Made deeds deadline)
    (token : made.token ∈ created (deeds ++ [deed]))
    (numbers : (deed.scope?.toList).map (·.lineage.head?) =
      (List.range' board.clock.scopes.issued (clock.scopes.issued - board.clock.scopes.issued)).map some)
    (issued : board.clock.scopes.issued ≤ clock.scopes.issued)
    (cancelled : clock.scopes.cancelled = board.clock.scopes.cancelled) :
    Tended (board.put name made clock) (deeds ++ [deed]) where
  listed := by
    intro entry member
    rcases List.mem_append.mp member with old | new
    · exact (tended.listed entry (List.mem_of_mem_filter old)).append _
    · obtain rfl := List.mem_singleton.mp new
      exact ⟨deed, by simp, makes⟩
  known := by
    intro other member deadline party
    rcases List.mem_append.mp member with old | new
    · obtain ⟨before, scope⟩ := tended.known other old deadline party
      exact ⟨before.append _, created_snoc deeds deed ▸ List.mem_append_left _ scope⟩
    · obtain rfl := List.mem_singleton.mp new
      rcases parties deadline party with rfl | before
      · exact ⟨⟨other, by simp, makes⟩, token⟩
      · exact ⟨before.append _, created_snoc deeds other ▸ List.mem_append_left _ (tended.token_of_made before)⟩
  relates := by
    intro other member
    rcases List.mem_append.mp member with old | new
    · exact tended.relates other old
    · rwa [List.mem_singleton.mp new]
  numbered := by
    have split : List.range clock.scopes.issued = List.range board.clock.scopes.issued ++
        List.range' board.clock.scopes.issued (clock.scopes.issued - board.clock.scopes.issued) := by
      obtain ⟨more, same⟩ := Nat.exists_eq_add_of_le issued
      rw [same, Nat.add_sub_cancel_left, List.range_add, List.range'_eq_map_range]
    rw [created_snoc, List.map_append, tended.numbered, numbers, ← List.map_append, ← split]
    rfl
  cancelled := by
    intro number
    have none : ∀ target, Deed.cancelled target ≠ deed := by
      rintro target rfl
      contradiction
    simp only [List.mem_append, List.mem_singleton, none, or_false, ← tended.cancelled]
    exact cancelled ▸ Iff.rfl
  idle := tended.idle

theorem cancel (tended : Tended board deeds) {target : Deadline} (made : Made deeds target) :
    Tended { board with clock := board.clock.cancel target.token } (deeds ++ [.cancelled target]) where
  listed entry member := (tended.listed entry member).append _
  known := by
    have same : created (deeds ++ [.cancelled target]) = created deeds := by
      rw [created_snoc]
      exact List.append_nil _
    intro deed member deadline party
    rw [same]
    rcases List.mem_append.mp member with old | new
    · exact (tended.known deed old deadline party).imp_left (·.append _)
    · obtain rfl := List.mem_singleton.mp new
      obtain rfl := List.mem_singleton.mp party
      exact ⟨made.append _, tended.token_of_made made⟩
  relates := by
    intro deed member
    rcases List.mem_append.mp member with old | new
    · exact tended.relates deed old
    · rw [List.mem_singleton.mp new]
      trivial
  numbered := by
    rw [created_snoc]
    exact (congrArg _ (List.append_nil _)).trans tended.numbered
  cancelled := by
    intro number
    have first : number ∈ target.token.lineage.take 1 ↔ target.token.lineage.head? = some number := by
      cases target.token.lineage <;> simp [eq_comm]
    show number ∈ target.token.lineage.take 1 ++ board.clock.scopes.cancelled ↔ _
    rw [List.mem_append, first, tended.cancelled]
    constructor
    · rintro (own | ⟨other, done, same⟩)
      · exact ⟨target, by simp, own⟩
      · exact ⟨other, List.mem_append_left _ done, same⟩
    · rintro ⟨other, done, same⟩
      rcases List.mem_append.mp done with old | new
      · exact .inr ⟨other, old, same⟩
      · cases List.mem_singleton.mp new
        exact .inl same
  idle := tended.idle

theorem effect (tended : Tended board deeds) {deed? : Option Deed} (effect : Effect board next deed?) :
    Tended next (deeds ++ deed?.toList) := by
  have own (deed : Deed) {made : Deadline} (makes : deed.scope? = some made.token) :
      made.token ∈ created (deeds ++ [deed]) := by
    rw [created_snoc, makes]
    simp
  cases effect with
  | nothing => rwa [Option.toList_none, List.append_nil]
  | opened name instant =>
    refine tended.put name rfl ⟨_, rfl⟩ ?_ (own _ rfl) ?_ ?_ rfl
    · simp [Deed.parties]
    · simp [Deed.scope?, Clock.freshToken, Scopes.fresh]
    · simp [Clock.freshToken, Scopes.fresh]
  | @child name _ source found =>
    refine tended.put name rfl ⟨rfl, _, rfl⟩ ?_ (own _ rfl) ?_ ?_ rfl
    · simp [Deed.parties, tended.held found]
    · simp [Deed.scope?, Deadline.child, Clock.childToken, Scopes.childOf]
    · simp [Clock.childToken, Scopes.childOf]
  | @tightened name _ source limit found =>
    refine tended.put name rfl ⟨rfl, _, rfl⟩ ?_ (own _ rfl) ?_ ?_ rfl
    · simp [Deed.parties, tended.held found]
    · simp [Deed.scope?, Deadline.tighten, Clock.childToken, Scopes.childOf]
    · simp [Clock.childToken, Scopes.childOf]
  | @shared name _ _ source scope found found' =>
    refine tended.put name rfl ⟨rfl, rfl⟩ ?_ ?_ ?_ (Nat.le_refl _) rfl
    · simp [Deed.parties, tended.held found, tended.held found']
    · have there : scope.token ∈ created deeds := tended.token_of_made (tended.held found')
      rw [created_snoc]
      exact List.mem_append_left _ there
    · simp [Deed.scope?]
  | cancelled found => exact tended.cancel (tended.held found)

theorem sleep (tended : Tended board deeds) (time : Nat) : Tended (board.sleep time) deeds := by
  rw [sleep_of_idle tended.idle]
  exact ⟨tended.listed, tended.known, tended.relates, tended.numbered, tended.cancelled, tended.idle⟩

theorem chronicle (events : List Event) : Tended (chronicle events).board (chronicle events).deeds := by
  unfold Board.chronicle
  induction events using List.reverseRecOn with
  | nil => exact .empty
  | append_singleton events event ih =>
    rw [List.foldl_append]
    cases event with
    | act action => exact ih.effect (effect_apply _ action)
    | sleep time => exact ih.sleep time

theorem nodup_numbers (tended : Tended board deeds) : ((created deeds).map (·.lineage.head?)).Nodup := by
  rw [tended.numbered]
  exact List.nodup_range.map fun _ _ => Option.some.inj

/-- A scope is known by its own number. -/
theorem eq_of_head? (tended : Tended board deeds) {first second : Token} (made : first ∈ created deeds)
    (made' : second ∈ created deeds) (same : first.lineage.head? = second.lineage.head?) : first = second :=
  List.inj_on_of_nodup_map tended.nodup_numbers made made' same

/-- A scope was opened on its own, or made within another one. -/
theorem created_cases (tended : Tended board deeds) {token : Token} (made : token ∈ created deeds) :
    (∃ number, token.lineage = [number]) ∨
      ∃ outer ∈ created deeds, Inner deeds token outer ∧ ∃ number, token.lineage = number :: outer.lineage := by
  obtain ⟨deed, member, own⟩ := List.mem_filterMap.mp made
  have relates := tended.relates deed member
  have known := tended.known deed member
  cases deed with
  | opened made =>
    cases own
    exact .inl relates
  | child source made =>
    cases own
    exact .inr ⟨source.token, (known source (by simp [Deed.parties])).2, .child member, relates.2⟩
  | tightened source bound made =>
    cases own
    exact .inr ⟨source.token, (known source (by simp [Deed.parties])).2, .tightened member, relates.2⟩
  | shared => cases own
  | cancelled => cases own

theorem inner_spec (tended : Tended board deeds) {inner outer : Token} (within : Inner deeds inner outer) :
    inner ∈ created deeds ∧ outer ∈ created deeds ∧ ∃ number, inner.lineage = number :: outer.lineage := by
  cases within with
  | @child source made done =>
    exact ⟨List.mem_filterMap.mpr ⟨_, done, rfl⟩, (tended.known _ done source (by simp [Deed.parties])).2,
      (tended.relates _ done).2⟩
  | @tightened source made bound done =>
    exact ⟨List.mem_filterMap.mpr ⟨_, done, rfl⟩, (tended.known _ done source (by simp [Deed.parties])).2,
      (tended.relates _ done).2⟩

theorem suffix_of_within (tended : Tended board deeds) {inner outer : Token} (within : Within deeds inner outer) :
    outer.lineage <:+ inner.lineage := by
  induction within with
  | refl => exact List.suffix_refl _
  | tail _ step ih =>
    obtain ⟨_, _, number, same⟩ := tended.inner_spec step
    exact (same ▸ List.suffix_cons number _).trans ih

/-- Each number in the lineage of a scope is that of a scope around it. -/
theorem exists_within (tended : Tended board deeds) {token : Token} (made : token ∈ created deeds) {number : Nat}
    (member : number ∈ token.lineage) :
    ∃ outer ∈ created deeds, Within deeds token outer ∧ outer.lineage.head? = some number := by
  induction long : token.lineage.length generalizing token with
  | zero => simp [List.eq_nil_of_length_eq_zero long] at member
  | succ length ih =>
    rcases tended.created_cases made with ⟨own, alone⟩ | ⟨outer, made', inner, own, lineage⟩
    · rw [alone, List.mem_singleton] at member
      exact ⟨token, made, .refl, by simp [alone, member]⟩
    · rw [lineage] at member long
      rcases List.mem_cons.mp member with rfl | above
      · exact ⟨token, made, .refl, by simp [lineage]⟩
      · obtain ⟨last, made'', within, head⟩ := ih made' above (by simpa using long)
        exact ⟨last, made'', .head inner within, head⟩

theorem within_iff (tended : Tended board deeds) {inner outer : Token} (made : inner ∈ created deeds)
    (made' : outer ∈ created deeds) :
    Within deeds inner outer ↔ ∃ number ∈ inner.lineage, outer.lineage.head? = some number := by
  constructor
  · intro within
    have suffix := tended.suffix_of_within within
    rcases tended.created_cases made' with ⟨number, lineage⟩ | ⟨_, _, _, number, lineage⟩
    all_goals
      rw [lineage] at suffix ⊢
      exact ⟨number, suffix.subset List.mem_cons_self, rfl⟩
  · rintro ⟨number, member, head⟩
    obtain ⟨last, made'', within, head'⟩ := tended.exists_within made member
    obtain rfl := tended.eq_of_head? made'' made' (head'.trans head.symm)
    exact within

theorem isCancelled_iff (tended : Tended board deeds) {deadline : Deadline} (made : Made deeds deadline) :
    deadline.isCancelled board.clock = true ↔
      ∃ target, .cancelled target ∈ deeds ∧ Within deeds deadline.token target.token := by
  rw [Deadline.isCancelled, Clock.isCancelled, Scopes.isCancelled_iff]
  simp only [tended.cancelled]
  constructor
  · rintro ⟨number, member, target, done, head⟩
    have known := (tended.known _ done target (by simp [Deed.parties])).2
    exact ⟨target, done, (tended.within_iff (tended.token_of_made made) known).mpr ⟨number, member, head⟩⟩
  · rintro ⟨target, done, within⟩
    have known := (tended.known _ done target (by simp [Deed.parties])).2
    obtain ⟨number, member, head⟩ := (tended.within_iff (tended.token_of_made made) known).mp within
    exact ⟨number, member, target, done, head⟩

theorem isCancelled_cancel_iff (tended : Tended board deeds) {target deadline : Deadline} (made : Made deeds target)
    (made' : Made deeds deadline) : deadline.isCancelled (board.clock.cancel target.token) = true ↔
      deadline.isCancelled board.clock = true ∨ Within deeds deadline.token target.token := by
  rw [tended.within_iff (tended.token_of_made made') (tended.token_of_made made)]
  refine Iff.trans Clock.isCancelled_cancel_iff (or_congr_right ?_)
  exact ⟨fun ⟨number, head, member⟩ => ⟨number, member, head⟩, fun ⟨number, member, head⟩ => ⟨number, head, member⟩⟩

end Tended

/-- Whatever is done with deadlines, cancelling reaches what lies within a scope and nothing else, and no deadline
derived from another is later. -/
theorem grown_chronicle (events : List Event) : Grown (chronicle events).board (chronicle events).deeds := by
  have tended := Tended.chronicle events
  constructor
  · exact obeys_of_idle tended.idle
  · exact fun _ _ => tended.held
  · exact fun deed member deadline party => (tended.known deed member deadline party).1
  · exact tended.nodup_numbers.of_map _
  · exact fun _ => tended.isCancelled_iff
  · intro name target found deadline made
    have same : ((chronicle events).board.apply (.cancel name)).clock =
        (chronicle events).board.clock.cancel target.token := by
      simp only [apply, found]
    rw [same]
    exact tended.isCancelled_cancel_iff (tended.held found) made
  · intro inner outer step within
    obtain ⟨_, _, number, lineage⟩ := tended.inner_spec step
    have length := (tended.suffix_of_within within).length_le
    rw [lineage, List.length_cons] at length
    omega
  · intro inner other outer step step' distinct within
    obtain ⟨made, _, number, lineage⟩ := tended.inner_spec step
    obtain ⟨made', _, number', lineage'⟩ := tended.inner_spec step'
    have suffix := tended.suffix_of_within within
    have same := suffix.eq_of_length (by rw [lineage, lineage', List.length_cons, List.length_cons])
    exact distinct (tended.eq_of_head? made made' (by rw [same]))
  · intro first second token opens opens' within within'
    obtain ⟨number, lineage⟩ := tended.relates _ opens
    obtain ⟨number', lineage'⟩ := tended.relates _ opens'
    have nested := List.suffix_of_suffix_length_le (tended.suffix_of_within within) (tended.suffix_of_within within')
      (by rw [lineage, lineage']; exact Nat.le_refl _)
    have same := nested.eq_of_length (by rw [lineage, lineage']; rfl)
    refine tended.eq_of_head? ?_ ?_ (by rw [same])
    · exact List.mem_filterMap.mpr ⟨_, opens, rfl⟩
    · exact List.mem_filterMap.mpr ⟨_, opens', rfl⟩
  · exact fun source made done => (tended.relates _ done).1
  · exact fun source bound made done => (tended.relates _ done).1
  · exact fun source scope made done => tended.relates _ done
  · intro start last derived
    induction derived using Relation.ReflTransGen.head_induction_on with
    | refl => exact Nat.le_refl _
    | head step _ ih =>
      refine Nat.le_trans ?_ ih
      cases step with
      | child done => exact Nat.le_of_eq (tended.relates _ done).1
      | tightened done => exact (tended.relates _ done).1 ▸ Nat.min_le_left ..
      | shared done => exact Nat.le_of_eq (tended.relates _ done).1

/-- A deadline is cancelled after one is derived from it and before others are. -/
def felled : List Event :=
  [.act (.after "root" 100), .act (.child "early" "root"), .sleep 10, .act (.cancel "root"),
    .act (.child "late" "root"), .act (.tighten "hasty" "early" 20), .act (.after "apart" 50),
    .act (.withToken "moved" "root" "apart")]

example : (["root", "early", "late", "hasty", "apart", "moved"].map fun name =>
    ((chronicle felled).board.find? name).map fun deadline =>
      (deadline.isCancelled (chronicle felled).board.clock, deadline.instant)) =
    [some (true, 100), some (true, 100), some (true, 100), some (true, 30), some (false, 60), some (false, 100)] := by
  decide

end HedgedForecast.Board
