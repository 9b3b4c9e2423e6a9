import Linkage.Proofs.Cache.Dealings
import Linkage.Proofs.Dependency.Leases
import Linkage.Verification.Task

/-! Whatever the verification of a plugin ends with, all its leases are given back. -/
namespace Linkage

section

variable {σ H lease : Type} [AddCommMonoid H] {T : σ × H → σ × H → Prop} [IsPreorder (σ × H) T]

/-- Who takes no leases and gives none back. -/
structure Observer.Idle (T : σ × H → σ × H → Prop) (o : Observer σ) : Prop where
  notify : ∀ own event, Trades T own (o.notify event) fun _ => own
  isCancelled : ∀ own, Trades T own o.isCancelled fun _ => own

/-- A depot whose leases are in hand until they are given back. -/
structure Verification.Depot.Honest (T : σ × H → σ × H → Prop) (value : lease → H)
    (depot : Depot σ lease) : Prop where
  find : depot.find.Honest T value
  giveBack : ∀ own held, Trades T (own + value held) (depot.giveBack held) fun _ => own

variable {o : Observer σ} (ho : o.Idle T) (own : H)
include ho

namespace Check

omit [AddCommMonoid H] in
theorem trades_checkFrom (env : Surroundings) (filters : List Filter) (plugin : Classpath)
    (total done : Nat) (names : List String) (run : Run) :
    Trades T own (checkFrom env filters plugin (Verification.watch o) total done names run)
      fun _ => own := by
  have hprogress (done : Nat) (name : String) :
      Trades T own ((Verification.watch o).progress done total name) fun _ => own := by
    unfold Verification.watch
    dsimp only
    split
    · exact ho.notify own _
    · exact .pure rfl
  induction names generalizing done run with
  | nil => exact (hprogress _ _).bind fun _ => .pure rfl
  | cons name names ih =>
    refine (ho.isCancelled own).bind fun asked => ?_
    cases asked with
    | true => exact .pure rfl
    | false => exact (hprogress _ _).bind fun _ => ih _ _

end Check

namespace Verification

omit [AddCommMonoid H] in
theorem trades_checkWith (params : Parameters) (plugin : Plugin) (host : Host) (graph : Graph)
    (dependencies : List Classpath) :
    Trades T own (checkWith params o plugin host graph dependencies) fun _ => own := by
  have hcheck := Check.trades_checkFrom ho own
    ⟨plugin.id, classpath params plugin dependencies host,
      Check.externalPrefixesOf params.externalPrefixes⟩
    params.filters plugin.classes plugin.classes.classNames.length 0 plugin.classes.classNames {}
  refine hcheck.bind fun checked => ?_
  cases checked with
  | error stop => exact .pure rfl
  | ok outcome =>
    exact (Trades.forM (fun _ => ho.notify own _) _).bind fun _ =>
      (Trades.forM (fun _ => ho.notify own _) _).bind fun _ =>
        (Trades.forM (fun _ => ho.notify own _) _).bind fun _ => .pure rfl

/-- The leases on the dependencies are given back, whether there is a graph or not, and a report or
not. -/
theorem trades_verify {value : lease → H} {depot : Depot σ lease} (hdepot : depot.Honest T value)
    (params : Parameters) (plugin : Plugin) (host : Host) :
    Trades T own (verify params o depot plugin host) fun _ => own := by
  let supply : Graph.Supply σ lease :=
    ⟨.firstOf [.bundled host.bundled, depot.find], depot.giveBack, o.isCancelled⟩
  have hsupply : supply.Honest T value :=
    ⟨Finder.honest_firstOf (by simp [Finder.honest_bundled, hdepot.find]), hdepot.giveBack,
      ho.isCancelled⟩
  refine (ho.notify own _).bind fun _ => (Graph.trades_build hsupply own _ plugin).bind fun r => ?_
  match r with
  | .error stop => exact .pure (add_zero own)
  | .ok built =>
    refine (ho.notify _ _).bind fun _ =>
      (trades_checkWith ho _ params plugin host built.graph built.classes).bind fun report =>
        (hsupply.giveBackAll own built.leases).bind fun _ => ?_
    cases report with
    | error stop => exact .pure rfl
    | ok r => exact (ho.notify own _).bind fun _ => .pure rfl

end Verification
end

namespace Workshop

variable {σ lease : Type}

/-- Leases in hand on plugins and on hosts. -/
abbrev Hands : Type := Multiset Coordinate × Multiset (List VersionPart)

/-- A lease on a plugin. -/
def onPlugin (c : Coordinate) : Hands := ({c}, 0)

/-- A lease on a host. -/
def onHost (version : HostVersion) : Hands := (0, {version.parts})

/-- Dealings with both caches. -/
structure Dealt (x y : Workshop σ × Hands) : Prop where
  plugins : Cache.Deals (x.1.library.cache, x.2.1) (y.1.library.cache, y.2.1)
  hosts : Cache.Deals (x.1.hosts, x.2.2) (y.1.hosts, y.2.2)

instance : IsPreorder (Workshop σ × Hands) Dealt where
  refl _ := ⟨.refl, .refl⟩
  trans _ _ _ h h' := ⟨h.plugins.trans h'.plugins, h.hosts.trans h'.hosts⟩

section Steps

variable (own : Hands)

theorem trades_onFollower {α : Type} (act : StateM σ α) :
    Trades Dealt own (onFollower act) fun _ => own :=
  fun _ => ⟨.refl, .refl⟩

theorem trades_setProgress (f : Progress → Progress) :
    Trades Dealt own (setProgress (σ := σ) f) fun _ => own :=
  fun _ => ⟨.refl, .refl⟩

theorem idle_observer (o : Observer σ) (offset scale : Float) :
    (observer o offset scale).Idle Dealt where
  notify own event := by
    cases event with
    | message text => exact (trades_setProgress own _).bind fun _ => trades_onFollower own _
    | progress fraction => exact (trades_setProgress own _).bind fun _ => trades_onFollower own _
    | problem | warning | graph | ignored | verdict => exact trades_onFollower own _
  isCancelled own := trades_onFollower own _

theorem dealt_acquirePlugin (w : Workshop σ) (c : Coordinate)
    (make : Coordinate → Except Refusal Plugin) :
    let (acquired, cache) := w.library.cache.acquire c make
    Dealt (w, own)
      ({ w with library := { w.library with cache } }, own + (Cache.gain c acquired.answer, 0)) :=
  ⟨Cache.deals_acquire _ _ c make, by simpa using .refl⟩

theorem trades_acquirePlugin (c : Coordinate) :
    Trades Dealt own (acquirePlugin (σ := σ) c) fun r => own + (Cache.gain c r, 0) :=
  fun w => dealt_acquirePlugin own w c w.library.load

theorem trades_giveBack (c : Coordinate) :
    Trades Dealt (own + onPlugin c) (onLibrary (σ := σ) (Library.giveBack c)) fun _ => own :=
  fun _ => ⟨Cache.deals_release _ _ c, by simpa [onPlugin] using .refl⟩

theorem trades_acquireHost (load : HostVersion → Except Refusal Host) (version : HostVersion) :
    Trades Dealt own (acquireHost (σ := σ) load version)
      fun r => own + (0, Cache.gain version.parts r) :=
  fun _ => ⟨by simpa using .refl, Cache.deals_acquire _ _ version.parts fun _ => load version⟩

theorem trades_releaseHost (version : HostVersion) :
    Trades Dealt (own + onHost version) (releaseHost (σ := σ) version) fun _ => own :=
  fun _ => ⟨by simpa [onHost] using .refl, Cache.deals_release _ _ version.parts⟩

/-- The library gives its plugins out on leases. -/
theorem honest_depot (w : Workshop σ) : w.depot.Honest Dealt onPlugin where
  find own on v := by
    change Dealt (v, own) ({ v with library := ((Library.find on).run v.library).2 },
      own + ((Library.find on).run v.library).1.inHand onPlugin)
    rcases Library.find_cases v.library on with ⟨reason, hrun⟩ | ⟨c, found, hlease, hrun⟩
    · rw [hrun]
      exact (Trades.pure (add_zero own).symm : Trades Dealt own (pure ()) fun _ => own + 0) v
    · have hgain : found.inHand onPlugin
          = (Cache.gain c (v.library.cache.acquire c v.library.load).1.answer, 0) := by
        unfold Found.inHand
        rw [hlease]
        cases (v.library.cache.acquire c v.library.load).1.answer <;> rfl
      rw [hrun]
      dsimp only
      rw [hgain]
      exact dealt_acquirePlugin own v c v.library.load
  giveBack own c := trades_giveBack own c

theorem trades_refuse (o : Observer σ) (c : Coordinate) (hosts : HostSelection)
    (refusal : Refusal) : Trades Dealt own (refuse o c hosts refusal) fun _ => own :=
  (Trades.forM (fun _ => trades_onFollower own _) _).bind fun _ => .pure rfl

variable {depot : Verification.Depot (Workshop σ) lease} {value : lease → Hands}

theorem trades_verifyEach (params : Parameters) (o : Observer σ)
    (load : HostVersion → Except Refusal Host) (hdepot : depot.Honest Dealt value) (c : Coordinate)
    (plugin : Plugin) (step : Float) (index : Nat) (versions : List HostVersion) :
    Trades Dealt own (verifyEach params o load depot c plugin step index versions) fun _ => own := by
  -- nothing of one host is in hand when the next one comes, so `own` stays the same
  induction versions generalizing index with
  | nil => exact .pure rfl
  | cons version versions ih =>
    unfold verifyEach
    refine (trades_onFollower own _).bind fun asked => ?_
    cases asked with
    | true => exact .pure rfl
    | false =>
      refine (trades_setProgress own _).bind fun _ =>
        (trades_acquireHost own load version).bind fun acquired => ?_
      cases acquired with
      | error refusal =>
        have hnothing : own + (0, Cache.gain version.parts (.error refusal : Except Refusal Host))
            = own := add_zero own
        rw [hnothing]
        exact ih (index + 1)
      | ok host =>
        refine (Verification.trades_verify (idle_observer o _ step) _ hdepot params plugin
          host).bind fun report => (trades_releaseHost own version).bind fun _ => ?_
        match report with
        | .error .cancelled => exact .pure rfl
        | .ok report => exact (ih (index + 1)).bind fun rest => .pure rfl

theorem trades_verifyPluginFrom (params : Parameters) (o : Observer σ)
    (load : HostVersion → Except Refusal Host) (hdepot : depot.Honest Dealt value) (c : Coordinate)
    (hosts : HostSelection) :
    Trades Dealt own (verifyPluginFrom depot params o load c hosts) fun _ => own := by
  unfold verifyPluginFrom
  refine (trades_setProgress own _).bind fun _ => (trades_acquirePlugin own c).bind fun acquired => ?_
  cases acquired with
  | error refusal =>
    have hnothing : own + (Cache.gain c (.error refusal : Except Refusal Plugin), 0) = own :=
      add_zero own
    rw [hnothing]
    exact (trades_refuse own o c hosts refusal).bind fun _ => .pure rfl
  | ok plugin =>
    refine (trades_verifyEach _ params o load hdepot c plugin _ 0 _).bind fun reports =>
      (trades_giveBack own c).bind fun _ => ?_
    cases reports with
    | error e => exact .pure rfl
    | ok reports => exact (trades_setProgress own _).bind fun _ => .pure rfl

end Steps

variable {depot : Verification.Depot (Workshop σ) lease} {value : lease → Hands} {w : Workshop σ}

/-- Every lease that the verification of a plugin takes is given back once by the time it ends,
whatever it ends with: then nothing is in hand, and on every plugin and every host as many leases are
out as before. -/
theorem verifyPluginFrom_returns_leases (params : Parameters) (o : Observer σ)
    (load : HostVersion → Except Refusal Host) (hdepot : depot.Honest Dealt value) (c : Coordinate)
    (hosts : HostSelection) (hplugins : w.library.cache.keys.Nodup) (hhosts : w.hosts.keys.Nodup) :
    let w' := ((verifyPluginFrom depot params o load c hosts).run w).2
    Dealt (w, 0) (w', 0) ∧ w.library.cache.Settled w'.library.cache ∧ w.hosts.Settled w'.hosts := by
  have hdealt := trades_verifyPluginFrom 0 params o load hdepot c hosts w
  exact ⟨hdealt, hdealt.plugins.settled hplugins, hdealt.hosts.settled hhosts⟩

/-- A library with two versions of a plugin, of which only the older one has a module, and a plugin
that depends on the newer one and on that module. Somebody has a lease on the older one. -/
def shelf : Library :=
  let older : Descriptor := { id := "a", version := "1", modules := ["m"] }
  let newer : Descriptor := { id := "a", version := "2" }
  let dependent : Descriptor :=
    { id := "p", version := "1", dependencies := [{ id := "a" }, { id := "m", onModule := true }] }
  { repository := ⟨[older, newer, dependent]⟩
    load := fun c =>
      match [older, newer, dependent].find? (·.coordinate = c) with
      | some d => .ok ⟨d, .empty, none⟩
      | none => .error (.notFound c.display)
    cache :=
      { capacity := 1
        entries := [{ key := older.coordinate, resource := ⟨older, .empty, none⟩, leases := 1 }] } }

def besideShelf : Workshop Nat := { library := shelf, hosts := { capacity := 1 }, follower := 2 }

/-- Asks for the end when it is asked for the third time. -/
def impatient : Observer Nat := ⟨fun _ => pure (), fun n => (n == 0, n - 1)⟩

/-- The verification ends while its graph is built, with a lease on the newer version in hand; the
one on the older version, which is of no use, has been given back before. -/
theorem verifyPluginFrom_returns_leases_cancelled :
    let after := (verifyPluginFrom besideShelf.depot {} impatient (fun v => .ok ⟨v, .empty, [], []⟩)
      ⟨"p", "1"⟩ (.versions [⟨none, [.number 1]⟩])).run besideShelf
    after.1.toOption.isNone ∧ after.2.library.cache.lent = 3
      ∧ Dealt (besideShelf, 0) (after.2, 0)
      ∧ besideShelf.library.cache.Settled after.2.library.cache
      ∧ besideShelf.hosts.Settled after.2.hosts :=
  ⟨by decide +kernel, by decide +kernel,
    verifyPluginFrom_returns_leases {} impatient _ (honest_depot besideShelf) _ _ (by decide)
      (by decide)⟩

/-- With dependencies from the library, too, all leases come back. -/
theorem verifyPlugin_settles (params : Parameters) (o : Observer σ)
    (load : HostVersion → Except Refusal Host) (c : Coordinate) (hosts : HostSelection)
    (hplugins : w.library.cache.keys.Nodup) (hhosts : w.hosts.keys.Nodup) :
    let w' := ((verifyPlugin params o load c hosts).run w).2
    w.library.cache.Settled w'.library.cache ∧ w.hosts.Settled w'.hosts := by
  have hdealt := trades_verifyPluginFrom 0 params o load (honest_depot w) c hosts w
  exact ⟨hdealt.plugins.settled hplugins, hdealt.hosts.settled hhosts⟩

end Workshop
end Linkage
