import UnityLan.Foundation.Runs
import UnityLan.Proxy.Route

namespace UnityLan.Proxy

open UnityLan.Foundation UnityLan.Engine.Fw

/-! What the proxy serves, as the engine's word changes. -/

structure StatusReport where
  wgIp : Option Ipv4Addr := none
  certPath : Option String := none
  keyPath : Option String := none
  expiresAt : Nat := 0
  proxyRoutes : List ProxyRoute := []

structure Live where
  bind : Option Ipv4Addr := none
  certPath : Option String := none
  keyPath : Option String := none
  certExpiresAt : Nat := 0
  routes : List ProxyRoute := []
  deriving DecidableEq

namespace Live

def ofReport (report : StatusReport) : Live :=
  ⟨report.wgIp, report.certPath, report.keyPath, report.expiresAt, report.proxyRoutes⟩

variable (live : Live)

def servable : Option (Ipv4Addr × String × String) :=
  if live.routes = [] then none
  else do return (← live.bind, ← live.certPath, ← live.keyPath)

end Live

/-- The certificate chain and the key that connections are accepted with. -/
structure TlsAcceptor where
  certs : String
  key : String
  deriving DecidableEq

structure Connection where
  peer : Ipv4Addr
  acceptor : TlsAcceptor
  routes : List ProxyRoute
  /-- How many sets of routes `serve_loop` had taken up when it was accepted. -/
  since : Nat

structure Proxying where
  live : Live
  /-- What `serve_loop` has taken up last. -/
  word : Live
  serving : Option (TlsAcceptor × List ProxyRoute)
  listener : Option Ipv4Addr
  /-- How many sets of routes `serve_loop` has taken up. -/
  taken : Nat
  connections : List Connection

inductive ProxyEvent where
  | status (report : StatusReport)
  | lost
  /-- `loaded` is what `load_tls` reads. -/
  | processed (loaded : Option TlsAcceptor)
  | accepted (peer : Ipv4Addr)
  | requested (connection : Nat) (host : String)
  | closed (connection : Nat)

namespace Proxying

def started : Proxying :=
  ⟨{}, {}, none, none, 0, []⟩

variable (p : Proxying)

def takeUp : Proxying :=
  { p with
    word := p.live
    taken := if p.live.routes = p.word.routes then p.taken else p.taken + 1 }

/-- What `serve_loop` makes of the word that it takes up. -/
def serve (loaded : Option TlsAcceptor) : Proxying :=
  match p.live.servable, loaded with
  | some (bind, _, _), some acceptor =>
      { p.takeUp with
        serving := some (acceptor, p.live.routes)
        listener := p.listener.or (some bind) }
  | _, _ => { p.takeUp with serving := none }

def accept (peer : Ipv4Addr) : Proxying :=
  match p.serving with
  | some (acceptor, routes) =>
      { p with connections := p.connections ++ [⟨peer, acceptor, routes, p.taken⟩] }
  | none => p

def step : ProxyEvent → Option Proxying
  | .status report => some { p with live := .ofReport report }
  | .lost => some { p with live := {} }
  | .processed loaded => some (p.serve loaded)
  | .accepted peer => if p.listener.isSome then some (p.accept peer) else none
  | .requested connection _ => if connection < p.connections.length then some p else none
  | .closed connection => some { p with connections := p.connections.eraseIdx connection }

/-- What `handle` decides about a request on a connection. -/
def decides (connection : Nat) (host : String) : Option Decision :=
  p.connections[connection]?.map fun conn => resolve conn.routes host conn.peer

/-- A request is forwarded only where the word that `serve_loop` has taken up last allows it. -/
def Current : ProxyEvent → Prop
  | .requested connection host => ∀ conn, p.connections[connection]? = some conn → ∀ port,
      resolve conn.routes host conn.peer = .forward port →
        resolve p.word.routes host conn.peer = .forward port
  | _ => True

/-- A request comes on a connection accepted under the routes that are in force. -/
def fits : ProxyEvent → Bool
  | .requested connection _ => p.connections[connection]?.all fun conn => conn.since == p.taken
  | _ => true

structure Following : Prop where
  serving : ∀ acceptor routes, p.serving = some (acceptor, routes) → routes = p.word.routes
  current : ∀ conn ∈ p.connections, conn.since = p.taken → conn.routes = p.word.routes
  taken : ∀ conn ∈ p.connections, conn.since ≤ p.taken

end Proxying

section

variable {p p' : Proxying} {event : ProxyEvent}

namespace Proxying

theorem started_following : started.Following :=
  ⟨nofun, nofun, nofun⟩

/-- The word that is taken up has the routes of the one before, or its connections are yet to
come. -/
theorem Following.serve (hfollows : p.Following) (loaded : Option TlsAcceptor) :
    (p.serve loaded).Following := by
  have hconnections : (p.serve loaded).connections = p.connections := by
    unfold Proxying.serve
    split <;> rfl
  have hword : (p.serve loaded).word = p.live := by
    unfold Proxying.serve
    split <;> rfl
  have htaken : (p.serve loaded).taken =
      if p.live.routes = p.word.routes then p.taken else p.taken + 1 := by
    unfold Proxying.serve
    split <;> rfl
  constructor
  case serving =>
    intro acceptor routes hserving
    rw [hword]
    unfold Proxying.serve at hserving
    split at hserving
    · cases hserving
      rfl
    · cases hserving
  case current =>
    rw [hconnections, hword, htaken]
    intro conn hconn hsince
    split at hsince
    · rename_i hsame
      exact (hfollows.current conn hconn hsince).trans hsame.symm
    · exact absurd (hfollows.taken conn hconn) (by omega)
  case taken =>
    rw [hconnections, htaken]
    intro conn hconn
    have htaken := hfollows.taken conn hconn
    split <;> omega

theorem Following.accept (hfollows : p.Following) (peer : Ipv4Addr) :
    (p.accept peer).Following := by
  unfold Proxying.accept
  split
  · rename_i acceptor routes hserving
    have hroutes := hfollows.serving acceptor routes hserving
    refine ⟨hfollows.serving, ?_, ?_⟩
    · intro conn hconn hsince
      rcases List.mem_append.mp hconn with hopen | hnew
      · exact hfollows.current conn hopen hsince
      · obtain rfl := List.mem_singleton.mp hnew
        exact hroutes
    · intro conn hconn
      rcases List.mem_append.mp hconn with hopen | hnew
      · exact hfollows.taken conn hopen
      · obtain rfl := List.mem_singleton.mp hnew
        exact Nat.le_refl _
  · exact hfollows

theorem Following.step (hfollows : p.Following) (hstep : p.step event = some p') :
    p'.Following := by
  cases event with
  | status report =>
      cases hstep
      exact ⟨hfollows.serving, hfollows.current, hfollows.taken⟩
  | lost =>
      cases hstep
      exact ⟨hfollows.serving, hfollows.current, hfollows.taken⟩
  | processed loaded =>
      cases hstep
      exact hfollows.serve loaded
  | accepted peer =>
      obtain ⟨_, hstep⟩ := Option.ite_none_right_eq_some.mp hstep
      cases hstep
      exact hfollows.accept peer
  | requested connection host =>
      obtain ⟨_, hstep⟩ := Option.ite_none_right_eq_some.mp hstep
      cases hstep
      exact hfollows
  | closed connection =>
      cases hstep
      refine ⟨hfollows.serving, ?_, ?_⟩
      · intro conn hconn
        exact hfollows.current conn (List.mem_of_mem_eraseIdx hconn)
      · intro conn hconn
        exact hfollows.taken conn (List.mem_of_mem_eraseIdx hconn)

theorem Following.request (hfollows : p.Following) (hfits : p.fits event = true) :
    p.Current event := by
  cases event with
  | requested connection host =>
      intro conn hconn port hforwards
      unfold fits at hfits
      dsimp only at hfits
      rw [hconn] at hfits
      have hroutes := hfollows.current conn (List.mem_of_getElem? hconn) (eq_of_beq hfits)
      rwa [← hroutes]
  | _ => trivial

end Proxying

/-- In a run whose requests come on connections accepted under the routes in force, each is
decided by the word of the engine. -/
theorem requests_current (events : List ProxyEvent)
    (hfits : meets Proxying.step Proxying.fits .started events = true) :
    AtEach Proxying.step .started events fun p event _ => p.Current event :=
  AtEach.of_meets Proxying.Following hfits Proxying.started_following
    (fun _ _ _ hfollows _ hstep => hfollows.step hstep)
    fun _ _ _ hfollows hfits _ => hfollows.request hfits

/-- A web service that only the peer at address 7 may use. -/
def wikiReport : StatusReport where
  wgIp := some 1
  certPath := some "cert.pem"
  keyPath := some "key.pem"
  proxyRoutes := [⟨["wiki"], 8080, some [7]⟩]

def wikiTls : TlsAcceptor := ⟨"chain", "key"⟩

theorem requests_current_wiki :
    (runs Proxying.step .started
      [.status wikiReport, .processed (some wikiTls), .accepted 7]).any (fun p =>
        p.decides 0 "wiki" = some (.forward 8080)) = true ∧
      AtEach Proxying.step .started
        [.status wikiReport, .processed (some wikiTls), .accepted 7, .requested 0 "wiki"]
        fun p event _ => p.Current event :=
  ⟨by decide, requests_current _ (by decide)⟩

/-- The stream is lost, and the peer asks again on the connection that it has. -/
def keptAlive : List ProxyEvent :=
  [.status wikiReport, .processed (some wikiTls), .accepted 7, .lost, .processed none,
    .requested 0 "wiki"]

/-- It is forwarded, where no word of the engine allows anything. -/
theorem lost_stream_forwarded :
    ¬ AtEach Proxying.step .started keptAlive fun p event _ => p.Current event := by
  intro hall
  have hplay : (runs Proxying.step .started (keptAlive.take 5)).any (fun p =>
      p.decides 0 "wiki" = some (.forward 8080) ∧ p.word = {}) = true := by
    decide
  obtain ⟨p, hrun, hend⟩ := (Option.any_eq_true _ _).mp hplay
  obtain ⟨hdecides, hword⟩ := of_decide_eq_true hend
  obtain ⟨conn, hconn, hforwards⟩ := Option.map_eq_some_iff.mp hdecides
  have hopen : 0 < p.connections.length := (List.getElem?_eq_some_iff.mp hconn).1
  have hcurrent : p.Current (.requested 0 "wiki") :=
    hall (keptAlive.take 5) _ p p (List.prefix_refl keptAlive) hrun (if_pos hopen)
  have hallowed := hcurrent conn hconn 8080 hforwards
  rw [hword] at hallowed
  cases hallowed

end

/-! What becomes of the certificate that is served where another cannot be loaded. -/

/-- The proxy, and the certificate that was loaded last since a word with nothing to serve. -/
structure Certified where
  p : Proxying
  held : Option TlsAcceptor

structure Served (held : Option TlsAcceptor) (live : Live) (loaded : Option TlsAcceptor)
    (serving : Option (TlsAcceptor × List ProxyRoute)) : Prop where
  nothing : live.servable = none → serving = none
  renewed : live.servable ≠ none → ∀ acceptor, loaded = some acceptor →
    serving = some (acceptor, live.routes)
  kept : live.servable ≠ none → loaded = none → ∀ acceptor, held = some acceptor →
    serving = some (acceptor, live.routes)
  routes : ∀ acceptor routes, serving = some (acceptor, routes) → routes = live.routes

namespace Certified

def started : Certified :=
  ⟨.started, none⟩

variable (c : Certified)

def holding : ProxyEvent → Option TlsAcceptor
  | .processed loaded => if c.p.live.servable = none then none else loaded.or c.held
  | _ => c.held

def step (event : ProxyEvent) : Option Certified :=
  (c.p.step event).map fun p => ⟨p, c.holding event⟩

def Right (event : ProxyEvent) (c' : Certified) : Prop :=
  match event with
  | .processed loaded => Served c.held c.p.live loaded c'.p.serving
  | _ => True

/-- No certificate fails to load where one was loaded since a word with nothing to serve. -/
def Loads : ProxyEvent → Prop
  | .processed loaded => c.p.live.servable ≠ none → loaded = none → c.held = none
  | _ => True

end Certified

section

variable {p : Proxying} {c c' : Certified} {event : ProxyEvent}

theorem serve_nothing (hnothing : p.live.servable = none) (loaded : Option TlsAcceptor) :
    (p.serve loaded).serving = none := by
  unfold Proxying.serve
  rw [hnothing]

theorem serve_loaded (hservable : p.live.servable ≠ none) (acceptor : TlsAcceptor) :
    (p.serve (some acceptor)).serving = some (acceptor, p.live.routes) := by
  obtain ⟨target, htarget⟩ := Option.ne_none_iff_exists'.mp hservable
  unfold Proxying.serve
  rw [htarget]

theorem serve_failed (p : Proxying) : (p.serve none).serving = none := by
  unfold Proxying.serve
  cases p.live.servable <;> rfl

theorem served_iff {held loaded : Option TlsAcceptor} :
    Served held p.live loaded (p.serve loaded).serving ↔
      (p.live.servable ≠ none → loaded = none → held = none) := by
  constructor
  · rintro hserved hservable rfl
    cases hheld : held with
    | none => rfl
    | some acceptor =>
        have hkept := hserved.kept hservable rfl acceptor hheld
        rw [serve_failed] at hkept
        cases hkept
  · intro hloads
    constructor
    · exact fun hnothing => serve_nothing hnothing loaded
    · rintro hservable acceptor rfl
      exact serve_loaded hservable acceptor
    · intro hservable hfailed acceptor hheld
      rw [hloads hservable hfailed] at hheld
      cases hheld
    · intro acceptor routes hserving
      cases hloaded : loaded with
      | none =>
          rw [hloaded, serve_failed] at hserving
          cases hserving
      | some acceptor' =>
          rw [hloaded] at hserving
          have hservable : p.live.servable ≠ none := by
            intro hnothing
            rw [serve_nothing hnothing] at hserving
            cases hserving
          rw [serve_loaded hservable] at hserving
          cases hserving
          rfl

theorem right_iff (hstep : c.step event = some c') : c.Right event c' ↔ c.Loads event := by
  obtain ⟨p, hp, rfl⟩ := Option.map_eq_some_iff.mp hstep
  cases event with
  | processed loaded =>
      cases hp
      exact served_iff
  | _ => exact Iff.rfl

/-- The certificate stays in every run in which none fails to load after it. -/
theorem certificate_served (events : List ProxyEvent) :
    AtEach Certified.step .started events Certified.Right ↔
      AtEach Certified.step .started events fun c event _ => c.Loads event :=
  AtEach.congr (fun _ => True) trivial (fun _ _ _ _ _ => trivial)
    fun _ _ _ _ hstep => right_iff hstep

/-- In the middle of a renewal, the files do not load. -/
def renewing : List ProxyEvent :=
  [.status wikiReport, .processed (some wikiTls), .status { wikiReport with expiresAt := 90 },
    .processed none]

/-- Nothing is served then, though a certificate was. -/
theorem renewal_drops :
    ¬ AtEach Certified.step .started renewing Certified.Right := by
  intro hall
  have hplay : (runs Certified.step .started (renewing.take 3)).any (fun c =>
      c.held = some wikiTls ∧ c.p.live.servable ≠ none) = true := by
    decide
  obtain ⟨c, hrun, hend⟩ := (Option.any_eq_true _ _).mp hplay
  obtain ⟨hheld, hservable⟩ := of_decide_eq_true hend
  have hright : c.Right (.processed none) ⟨c.p.serve none, c.holding (.processed none)⟩ :=
    hall (renewing.take 3) _ c _ (List.prefix_refl renewing) hrun rfl
  have hloads : c.Loads (.processed none) := (right_iff rfl).mp hright
  rw [hloads hservable rfl] at hheld
  cases hheld

end

end UnityLan.Proxy
