import TieredUdf.Proofs.Guest.Confinement
import TieredUdf.Proofs.Module.TypedCalls
import TieredUdf.Wasm.Tier

/-! # What a call can learn of others

The host hands out what stands under any identifier that a guest gives, the caller's own or not.
Calls are therefore isolated exactly as far as the host answers alike under the identifiers that
their guests name: two runs whose other calls in flight answer alike there are the same to the
guest and to the caller, and wherever they do not, some guest tells the runs apart.
-/

namespace TieredUdf

open Guest (Dialogue)
open Host (Registry State)
open Text (Duration)

variable {β ω ι : Type}

/-! ## Factories that talk to the host -/

/-- A factory whose instances come up in a dialogue with the host. -/
def Factory.ofDialogue (make : β → Dialogue (Except ExecError ι × β)) : Factory (World β) ι :=
  fun w =>
    let made := (make w.outside).run w.host
    (made.2.1, ⟨made.1, made.2.2⟩)

/-- The factory of a pool talks to the host alone, and names no contexts but some. -/
def Pool.Talks (P : Int64 → Prop) (p : Pool (World β) ι) : Prop :=
  ∃ make, p.factory = .ofDialogue make ∧ ∀ outside, (make outside).Confined P

theorem Pool.Talks.close {P : Int64 → Prop} (p : Pool (World β) ι) (h : p.Talks P) :
    p.close.1.Talks P := h

theorem Pool.Talks.mono {P Q : Int64 → Prop} {p : Pool (World β) ι} (h : p.Talks P)
    (weaker : ∀ ctx, P ctx → Q ctx) : p.Talks Q := by
  obtain ⟨make, made, confined⟩ := h
  exact ⟨make, made, fun outside => (confined outside).mono weaker⟩

/-- Both tiers of WebAssembly make their instances in such dialogues. -/
theorem Wasm.factory_eq_ofDialogue (p : Program) (maxDepth : Nat) (spec : InstanceSpec) :
    Wasm.factory (β := β) p maxDepth spec = .ofDialogue fun outside =>
      (Instance.instantiate p maxDepth spec).map fun r => (r, outside) := by
  funext w
  simp [Wasm.factory, Factory.ofDialogue, Dialogue.run_map]

theorem Pool.talks_of_wasm {p : Pool (World β) Wasm.Instance} {program : Wasm.Program}
    {maxDepth : Nat} {spec : InstanceSpec}
    (h : p.factory = Wasm.factory program maxDepth spec) : p.Talks fun _ => True :=
  ⟨_, h.trans (Wasm.factory_eq_ofDialogue program maxDepth spec), fun _ => Dialogue.confined_true _⟩

/-- Two worlds that guests confined to some contexts cannot tell apart.  The next identifier is
the same in both, and nothing stands under it. -/
structure World.Alike (P : Int64 → Prop) (v w : World β) : Prop where
  outside : v.outside = w.outside
  nextId : v.host.contexts.nextId = w.host.contexts.nextId
  freshLeft : v.host.contexts.get? v.host.contexts.nextId = none
  freshRight : w.host.contexts.get? w.host.contexts.nextId = none
  answers : ∀ ctx, P ctx → State.AlikeAt ctx v.host w.host

theorem World.Alike.keeps {P : Int64 → Prop} {v w : World β} (h : v.Alike P w) {a b : State}
    (left : v.host.contexts.Keeps a.contexts) (right : w.host.contexts.Keeps b.contexts)
    (outside : β) : World.Alike P ⟨a, outside⟩ ⟨b, outside⟩ where
  outside := rfl
  nextId := (left.nextId.trans h.nextId).trans right.nextId.symm
  freshLeft := left.get?_eq_none (left.nextId ▸ h.freshLeft)
  freshRight := right.get?_eq_none (right.nextId ▸ h.freshRight)
  answers := fun ctx may => ((State.alikeAt_of_keeps left ctx).symm.trans (h.answers ctx may)).trans
    (State.alikeAt_of_keeps right ctx)

theorem Pool.Talks.blind {P : Int64 → Prop} {p : Pool (World β) ι} (h : p.Talks P) :
    Pool.Blind (World.Alike P) p.factory := by
  obtain ⟨make, made, confined⟩ := h
  rw [made]
  rintro v w alike
  have ends := (Dialogue.run_alike (confined v.outside) alike.answers).2
  have left := (make v.outside).keeps_run v.host
  have right := (make v.outside).keeps_run w.host
  have same : Factory.ofDialogue make w =
      (((make v.outside).run v.host).2.1,
        ⟨((make v.outside).run w.host).1, ((make v.outside).run v.host).2.2⟩) := by
    rw [ends, Factory.ofDialogue, alike.outside]
  rw [same]
  exact ⟨rfl, alike.keeps left right _⟩

/-- What anyone can see outlasts a request for an instance. -/
theorem Pool.Talks.keeps_checkout {P : Int64 → Prop} {p : Pool (World β) ι} (h : p.Talks P)
    (w : World β) : w.host.contexts.Keeps (p.checkout w).2.2.host.contexts := by
  obtain ⟨make, made, _⟩ := h
  rcases p.checkout_surroundings w with same | attempt
  · rw [same]
    exact .refl _
  · rw [attempt, made]
    exact (make w.outside).keeps_run w.host

namespace Site

/-! ## Two runs up to the guest -/

/-- Two sites that differ in nothing that guests confined to some contexts can tell apart. -/
structure Alike (P : Int64 → Prop) (s t : Site β ι) : Prop where
  module : s.module = t.module
  cache : s.cache = t.cache
  world : s.world.Alike P t.world

/-- Two calls have come equally far, to worlds that answer alike. -/
structure Entered (P : Int64 → Prop) (x y : Admission ι × Site β ι) : Prop where
  admission : x.1 = y.1
  module : x.2.module = y.2.module
  answers : ∀ ctx, P ctx → State.AlikeAt ctx x.2.world.host y.2.world.host

variable {P : Int64 → Prop} {s t : Site β ι}

theorem Alike.refuse (h : s.Alike P t) (e : ExecError) (now : Nat) :
    Entered P (s.refuse e now) (t.refuse e now) := by
  refine ⟨rfl, ?_, h.world.answers⟩
  unfold Site.refuse
  rw [h.module, h.cache]

theorem Alike.checkoutFrom (h : s.Alike P t) (talks : s.module.Each (Pool.Talks P)) (tier : Tier) :
    (s.checkoutFrom tier).1 = (t.checkoutFrom tier).1 ∧
      (s.checkoutFrom tier).2.Alike P (t.checkoutFrom tier).2 := by
  cases hp : s.module.pool? tier with
  | none =>
      have hq : t.module.pool? tier = none := h.module ▸ hp
      rw [Site.checkoutFrom, Site.checkoutFrom, hp, hq]
      exact ⟨by rw [h.module], h⟩
  | some p =>
      have hq : t.module.pool? tier = some p := h.module ▸ hp
      rw [checkoutFrom_of_pool hp, checkoutFrom_of_pool hq]
      obtain ⟨results, pools, worlds⟩ := Pool.checkout_agree (talks tier p hp).blind h.world
      exact ⟨results, by rw [h.module, pools], h.cache, worlds⟩

theorem Alike.start (h : s.Alike P t) (tier : Tier) (m : Member ι) (bound : BoundCall)
    (document : Document) :
    Entered P (s.start tier m bound document) (t.start tier m bound document) := by
  refine ⟨?_, h.module, fun ctx may => ?_⟩
  · rw [start_admission, start_admission, h.world.nextId]
  · exact (h.world.answers ctx may).withContext h.world.nextId h.world.freshLeft
      h.world.freshRight (.ofDocument document bound.texts)

theorem Alike.afterCheckout (h : s.Alike P t) (talks : s.module.Each (Pool.Talks P))
    (tier : Tier) (result : Except ExecError (Member ι)) (bound : BoundCall)
    (document : Document) (now : Nat) :
    Entered P (s.afterCheckout tier result bound document now)
      (t.afterCheckout tier result bound document now) := by
  cases result with
  | ok m => exact h.start tier m bound document
  | error e =>
      have retired : s.wasRetired tier e = t.wasRetired tier e := by
        unfold Site.wasRetired
        rw [h.module]
      unfold Site.afterCheckout
      dsimp only
      rw [retired, h.module]
      split
      · obtain ⟨results, after⟩ := h.checkoutFrom talks .native
        revert results after
        rcases s.checkoutFrom .native with ⟨e | m, s⟩ <;>
          rcases t.checkoutFrom .native with ⟨f | n, t⟩ <;> intro results after <;> cases results
        · exact after.refuse e now
        · exact after.start .native m bound document
      · exact h.refuse e now

theorem talks_checkoutFrom (s : Site β ι) (talks : s.module.Each (Pool.Talks P)) (tier : Tier) :
    (s.checkoutFrom tier).2.module.Each (Pool.Talks P) := by
  cases hp : s.module.pool? tier with
  | none =>
      rw [Site.checkoutFrom, hp]
      exact talks
  | some p =>
      rw [checkoutFrom_of_pool hp]
      obtain ⟨make, made, confined⟩ := talks tier p hp
      have follows := p.follows_asked.trans (p.checkout_answers s.world).follows
      exact talks.setPool tier ⟨make, follows.factory.trans made, confined⟩

/-- Confined to contexts that are answered alike, two calls come equally far. -/
theorem Alike.enter (h : s.Alike P t) (talks : s.module.Each (Pool.Talks P))
    (document : Document) (args : Arguments) (now : Nat) :
    Entered P (s.enter document args now) (t.enter document args now) := by
  rw [enter_eq, enter_eq]
  dsimp only
  have arrived :
      Alike P { s with module := s.module.arrive } { t with module := t.module.arrive } :=
    ⟨by rw [h.module], h.cache, h.world⟩
  have talking : s.module.arrive.Each (Pool.Talks P) :=
    talks.closes Pool.Talks.close s.module.closes_arrive
  rw [h.module] at arrived talking ⊢
  split
  · exact arrived.refuse _ now
  · split
    · exact arrived.refuse _ now
    · rename_i bound _
      unfold lendLive
      dsimp only
      split
      · exact arrived.refuse _ now
      · rename_i tier _
        obtain ⟨results, after⟩ := arrived.checkoutFrom talking tier
        have still := talks_checkoutFrom { s with module := t.module.arrive } talking tier
        rw [results]
        exact after.afterCheckout still tier _ bound document now

/-! ## What outlasts entering -/

/-- The identifier that the next call is known by. -/
def nextContext (s : Site β ι) : Int64 := Registry.guestId s.world.host.contexts.nextId

theorem keeps_checkoutFrom (s : Site β ι) (talks : s.module.Each (Pool.Talks P)) (tier : Tier) :
    s.world.host.contexts.Keeps (s.checkoutFrom tier).2.world.host.contexts := by
  cases hp : s.module.pool? tier with
  | none =>
      rw [Site.checkoutFrom, hp]
      exact .refl _
  | some p =>
      rw [checkoutFrom_of_pool hp]
      exact (talks tier p hp).keeps_checkout s.world

theorem view?_start (s : Site β ι) (tier : Tier) (m : Member ι) (bound : BoundCall)
    (document : Document) {ctx : Int64} (other : ctx ≠ s.nextContext) :
    (s.start tier m bound document).2.world.host.contexts.view? ctx =
      s.world.host.contexts.view? ctx :=
  Registry.view?_register_other _ other

theorem view?_afterCheckout (s : Site β ι) (talks : s.module.Each (Pool.Talks P)) (tier : Tier)
    (result : Except ExecError (Member ι)) (bound : BoundCall) (document : Document) (now : Nat)
    {ctx : Int64} (other : ctx ≠ s.nextContext) :
    (s.afterCheckout tier result bound document now).2.world.host.contexts.view? ctx =
      s.world.host.contexts.view? ctx := by
  cases result with
  | ok m => exact s.view?_start tier m bound document other
  | error e =>
      unfold Site.afterCheckout
      dsimp only
      split
      · have kept := s.keeps_checkoutFrom talks .native
        revert kept
        rcases s.checkoutFrom .native with ⟨e | m, r⟩ <;> intro kept
        · exact kept.view? ctx
        · have others : ctx ≠ r.nextContext := by
            rw [nextContext, kept.nextId]
            exact other
          exact (r.view?_start .native m bound document others).trans (kept.view? ctx)
      · rfl

/-- Entering changes nothing that can be seen under the identifiers of other calls. -/
theorem view?_enter (s : Site β ι) (talks : s.module.Each (Pool.Talks P)) (document : Document)
    (args : Arguments) (now : Nat) {ctx : Int64} (other : ctx ≠ s.nextContext) :
    (s.enter document args now).2.world.host.contexts.view? ctx =
      s.world.host.contexts.view? ctx := by
  have talking : s.module.arrive.Each (Pool.Talks P) :=
    talks.closes Pool.Talks.close s.module.closes_arrive
  rw [enter_eq]
  dsimp only
  split
  · rfl
  · split
    · rfl
    · rename_i bound _
      unfold lendLive
      dsimp only
      split
      · rfl
      · rename_i tier _
        have kept := keeps_checkoutFrom { s with module := s.module.arrive } talking tier
        have still := talks_checkoutFrom { s with module := s.module.arrive } talking tier
        have others : ctx ≠ nextContext
            ({ s with module := s.module.arrive }.checkoutFrom tier).2 := by
          rw [nextContext, kept.nextId]
          exact other
        rw [view?_afterCheckout _ still tier _ bound document now others, kept.view?]

/-! ## Whole calls -/

/-- Everything that the guest of a call exchanges with the host. -/
def heard (caller : Caller ι) (s : Site β ι) (document : Document) (args : Arguments)
    (now : Nat) : List Dialogue.Exchange :=
  match s.enter document args now with
  | (.refused _, _) => []
  | (.running call, s) =>
      (caller call.lease.member.body call.arguments).transcript s.world.host

/-- Two sites that differ in nothing but the contexts of other calls in flight.  The next
identifier, a number of 64 bits, is in use in neither. -/
structure DifferInContexts (s t : Site β ι) : Prop where
  module : s.module = t.module
  cache : s.cache = t.cache
  outside : s.world.outside = t.world.outside
  lines : s.world.host.lines = t.world.host.lines
  nextId : s.world.host.contexts.nextId = t.world.host.contexts.nextId
  small : s.world.host.contexts.nextId < UInt64.size
  freshLeft : s.world.host.contexts.get? s.world.host.contexts.nextId = none
  freshRight : t.world.host.contexts.get? t.world.host.contexts.nextId = none

theorem DifferInContexts.alike (h : s.DifferInContexts t)
    (answers : ∀ ctx, P ctx → ctx ≠ s.nextContext → State.AlikeAt ctx s.world.host t.world.host) :
    s.Alike (fun ctx => P ctx ∨ ctx = s.nextContext) t := by
  refine ⟨h.module, h.cache, h.outside, h.nextId, h.freshLeft, h.freshRight, fun ctx may => ?_⟩
  by_cases own : ctx = s.nextContext
  · rw [own]
    exact State.alikeAt_next h.nextId h.small h.freshLeft h.freshRight
  · exact answers ctx (may.resolve_right own) own

theorem finish_result (caller : Caller ι) (s : Site β ι) (call : RunningCall ι)
    (elapsed : Duration) (now : Nat) :
    (s.finish caller call elapsed now).1 =
      (((caller call.lease.member.body call.arguments).run s.world.host).2.1.bind
        (Descriptor.convertResults s.module.descriptor.returns)).map
          fun values => ⟨values, call.tier, elapsed⟩ :=
  endCall_result _ call _ _ elapsed now

/-- Calls that have come equally far end alike when their guests name only contexts that are
answered alike. -/
theorem invoke_of_entered {caller : Caller ι} {document : Document} {args : Arguments} {now : Nat}
    (entered : Entered P (s.enter document args now) (t.enter document args now))
    (confined : ∀ body raw, (caller body raw).Confined P) (elapsed : Duration) :
    (s.invoke caller document args elapsed now).1 = (t.invoke caller document args elapsed now).1 ∧
      s.heard caller document args now = t.heard caller document args now := by
  obtain ⟨admission, module, answers⟩ := entered
  rw [invoke_eq, invoke_eq]
  unfold heard
  revert admission module answers
  rcases s.enter document args now with ⟨e | call, s⟩ <;>
    rcases t.enter document args now with ⟨f | other, t⟩ <;>
    intro admission module answers <;> cases admission
  · exact ⟨rfl, rfl⟩
  · have named := confined call.lease.member.body call.arguments
    obtain ⟨transcripts, ends⟩ := Dialogue.run_alike named answers
    refine ⟨?_, transcripts⟩
    dsimp only at module ⊢
    rw [finish_result, finish_result, ends, module]

/-! ## Guests that tell two runs apart -/

/-- A guest that asks nothing and ends with a given message. -/
def silent (text : String) : Caller ι := fun body _ => .done (.error (.trap .other text), body)

open Classical in
/-- A guest that asks one question and tells whether the answer is the expected one. -/
noncomputable def probe (call : Host.Call) (memory : Option Guest.Memory)
    (expected : Option Guest.Memory × List Scalar) : Caller ι := fun body _ =>
  .ask call memory fun m results =>
    .done (.error (.trap .other (if (m, results) = expected then "expected" else "other")), body)

theorem invoke_silent (text : String) (s : Site β ι) (document : Document) (args : Arguments)
    (elapsed : Duration) (now : Nat) :
    (s.invoke (silent text) document args elapsed now).1 =
      match (s.enter document args now).1 with
      | .refused e => .error e
      | .running _ => .error (.trap .other text) := by
  rw [invoke_eq]
  rcases s.enter document args now with ⟨e | call, r⟩
  · rfl
  · dsimp only
    rw [finish_result]
    rfl

open Classical in
theorem invoke_probe {call : Host.Call} {memory : Option Guest.Memory}
    {expected : Option Guest.Memory × List Scalar} {document : Document} {args : Arguments}
    {now : Nat} {running : RunningCall ι}
    (enters : (s.enter document args now).1 = .running running) (elapsed : Duration) :
    (s.invoke (probe call memory expected) document args elapsed now).1 =
        .error (.trap .other "expected") ↔
      (s.enter document args now).2.world.host.answer memory call = expected := by
  rw [invoke_eq]
  revert enters
  rcases s.enter document args now with ⟨e | entered, r⟩ <;> intro enters <;> cases enters
  have ran : ((probe call memory expected running.lease.member.body running.arguments).run
      r.world.host).2.1 = .error (.trap .other
        (if r.world.host.answer memory call = expected then "expected" else "other")) := rfl
  dsimp only
  rw [finish_result, ran]
  by_cases same : r.world.host.answer memory call = expected
  · rw [if_pos same]
    exact ⟨fun _ => same, fun _ => rfl⟩
  · rw [if_neg same]
    exact ⟨fun told => by simp [Except.bind, Except.map] at told, fun h => absurd h same⟩

/-- A call that reaches its guest in one run reaches it in the other, if no guest tells the runs
apart. -/
theorem enters_of_silent {document : Document} {args : Arguments} {elapsed : Duration} {now : Nat}
    {running : RunningCall ι} (enters : (s.enter document args now).1 = .running running)
    (same : ∀ text, (s.invoke (silent text) document args elapsed now).1 =
      (t.invoke (silent text) document args elapsed now).1) :
    ∃ other, (t.enter document args now).1 = .running other := by
  cases admitted : (t.enter document args now).1 with
  | running other => exact ⟨other, rfl⟩
  | refused e =>
      -- a refusal has one error, and two guests that end with different ones both have to match it
      have first := same "first"
      have second := same "second"
      rw [invoke_silent, invoke_silent, enters, admitted] at first second
      have clash := first.trans second.symm
      simp at clash

/-- Calls are isolated exactly as far as the host answers alike.  Guests that name only their own
context and some others end alike and hear the same in two runs if the host answers alike under
those others; and as soon as a call reaches its guest, such guests end alike only then.  The host
answers alike where the same can be seen in both runs, and nowhere that a context is in flight in
one run alone or documents differ in their scores. -/
theorem invoke_isolated (differ : s.DifferInContexts t) (talks : s.module.Each (Pool.Talks P))
    (document : Document) (args : Arguments) (elapsed : Duration) (now : Nat) :
    ((∀ ctx, P ctx → ctx ≠ s.nextContext → State.AlikeAt ctx s.world.host t.world.host) →
      ∀ caller : Caller ι,
        (∀ body raw, (caller body raw).Confined fun ctx => P ctx ∨ ctx = s.nextContext) →
        (s.invoke caller document args elapsed now).1 =
            (t.invoke caller document args elapsed now).1 ∧
          s.heard caller document args now = t.heard caller document args now) ∧
    ((∃ call, (s.enter document args now).1 = .running call) →
      (∀ caller : Caller ι,
        (∀ body raw, (caller body raw).Confined fun ctx => P ctx ∨ ctx = s.nextContext) →
        (s.invoke caller document args elapsed now).1 =
          (t.invoke caller document args elapsed now).1) →
      ∀ ctx, P ctx → ctx ≠ s.nextContext → State.AlikeAt ctx s.world.host t.world.host) ∧
    ∀ ctx,
      (s.world.host.contexts.view? ctx = t.world.host.contexts.view? ctx →
        State.AlikeAt ctx s.world.host t.world.host) ∧
      (State.AlikeAt ctx s.world.host t.world.host →
        (s.world.host.contexts.resolve? ctx).isSome =
            (t.world.host.contexts.resolve? ctx).isSome ∧
          s.world.host.scoreAt ctx = t.world.host.scoreAt ctx) := by
  refine ⟨fun answers caller confined => ?_, ?_, fun ctx =>
    ⟨State.alikeAt_of_view, fun alike => ⟨alike.isSome_eq, alike.scoreAt_eq⟩⟩⟩
  · have talking : s.module.Each (Pool.Talks fun ctx => P ctx ∨ ctx = s.nextContext) :=
      fun tier p hp => (talks tier p hp).mono fun _ => Or.inl
    have entered := (differ.alike answers).enter talking document args now
    exact invoke_of_entered entered confined elapsed
  · rintro ⟨running, enters⟩ same ctx may other memory call named
    have talksRight : t.module.Each (Pool.Talks P) := differ.module ▸ talks
    have otherRight : ctx ≠ t.nextContext := by
      rw [nextContext, ← differ.nextId]
      exact other
    -- what is asked while the guest runs is answered as it would have been before the call
    have left : State.AlikeAt ctx s.world.host (s.enter document args now).2.world.host :=
      State.alikeAt_of_view (s.view?_enter talks document args now other).symm
    have right : State.AlikeAt ctx t.world.host (t.enter document args now).2.world.host :=
      State.alikeAt_of_view (t.view?_enter talksRight document args now otherRight).symm
    obtain ⟨_, entersRight⟩ := enters_of_silent enters fun text => same _ fun _ _ => trivial
    have asked := same (probe call memory (s.world.host.answer memory call)) fun _ _ =>
      ⟨fun c hc => Or.inl (Option.some.inj (hc.symm.trans named) ▸ may), fun _ _ => trivial⟩
    have told := (invoke_probe enters elapsed).mpr (left memory call named).symm
    rw [asked, invoke_probe entersRight] at told
    rw [right memory call named, told]

/-! ## A call that reads another one's document -/

/-- A module on the interpreter, with some calls in flight and identifier 2 to be given next. -/
def withFlights (flights : List (Nat × Host.CallContext)) : Site Unit Unit :=
  { Descriptor.boostSite with world := ⟨⟨⟨2, flights⟩, []⟩, ()⟩ }

def busy : Site Unit Unit :=
  withFlights [(1, .ofDocument (.bare "other" (.ofInt 7)) [("lang", "en")])]

def quiet : Site Unit Unit := withFlights []

def boosted : Arguments := [("boost", .f64 .zero)]

theorem talks_withFlights (flights : List (Nat × Host.CallContext)) :
    (withFlights flights).module.Each (Pool.Talks P) := by
  intro tier p hp
  cases tier with
  | native => cases hp
  | interpreter =>
      cases hp
      exact ⟨fun outside => .done (.ok (), outside), rfl, fun _ => trivial⟩

theorem busy_differ_quiet : busy.DifferInContexts quiet :=
  ⟨rfl, rfl, rfl, rfl, rfl, by decide, rfl, rfl⟩

/-- Some guest that names no context but the first one, which is not its own, tells whether the
other call is in flight. -/
theorem invoke_isolated_busy :
    busy.DifferInContexts quiet ∧ busy.module.Each (Pool.Talks fun ctx => ctx = 1) ∧
    (1 : Int64) ≠ busy.nextContext ∧
    ∃ caller : Caller Unit,
      (∀ body raw, (caller body raw).Confined fun ctx => ctx = 1 ∨ ctx = busy.nextContext) ∧
      (busy.invoke caller (.bare "d" .zero) boosted (.ofMilliseconds 1) 0).1 ≠
        (quiet.invoke caller (.bare "d" .zero) boosted (.ofMilliseconds 1) 0).1 := by
  have other : (1 : Int64) ≠ busy.nextContext := by decide
  obtain ⟨_, complete, present⟩ := invoke_isolated busy_differ_quiet
    (talks_withFlights (P := fun ctx => ctx = 1) _) (.bare "d" .zero) boosted
    (.ofMilliseconds 1) 0
  refine ⟨busy_differ_quiet, talks_withFlights _, other, ?_⟩
  by_contra blind
  push Not at blind
  have alike := complete ⟨_, rfl⟩ blind 1 rfl other
  exact absurd ((present 1).2 alike).1 (by decide)

/-- A guest that asks for the score under the first identifier, whosever it is. -/
def prying : Caller Unit := fun _ _ =>
  .ask (.getScore 1) none fun _ results => .done (.ok results, ())

/-- Calls are not isolated from one another: a guest that guesses an identifier reads the score of
the document that another call is in flight for. -/
theorem not_isolated :
    ¬ ∀ (s t : Site Unit Unit) (caller : Caller Unit) (document : Document) (args : Arguments)
        (elapsed : Duration) (now : Nat),
      s.DifferInContexts t → s.module.Each (Pool.Talks fun _ => True) →
      (s.invoke caller document args elapsed now).1 =
          (t.invoke caller document args elapsed now).1 ∧
        s.heard caller document args now = t.heard caller document args now := by
  intro isolated
  have same := (isolated busy quiet prying (.bare "d" .zero) boosted (.ofMilliseconds 1) 0
    busy_differ_quiet (talks_withFlights _)).1
  exact absurd same (by decide +kernel)

end Site

end TieredUdf
