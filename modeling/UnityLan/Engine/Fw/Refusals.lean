import UnityLan.Engine.Fw.Firewall

namespace UnityLan.Engine.Fw

open UnityLan.Foundation

/-! What a call that changes the exposures leaves when it does not return `Ok`. -/

namespace Firewall

variable {faults : Faults} {fw fw' : Firewall} {stop : Stop}

/-- The answers to a call that nothing else runs beside. -/
def alone (faults : Faults) (o : FirewallOp) (fw : Firewall) : Except Stop o.Answer × Firewall :=
  fw.exec faults o

theorem run_ask (o : FirewallOp) (fw : Firewall) :
    (ask o).run (alone faults) fw = fw.exec faults o := by
  unfold ask
  rw [Prog.run_performOr]
  rfl

theorem run_keeps {α : Type} {program : FirewallM α} {inside : FirewallOp → Prop} {input : Input}
    (hprogram : program.Uses inside) (hother : ∀ o, inside o → o.changes ≠ some input)
    (fw : Firewall) : (program.run (alone faults) fw).2.value input = fw.value input := by
  refine hprogram.run (fun before after => after.value input = before.value input) ?_ ?_ ?_ fw
  · exact fun _ => rfl
  · exact fun _ _ _ hfirst hsecond => hsecond.trans hfirst
  · exact fun o _ hinside => exec_keeps (hother o hinside)

theorem underLock_sound {α : Type} (hsound : fw.poisoned = false) (answer : α)
    (after : Firewall) : fw.underLock answer after = (.ok answer, after) := by
  simp [underLock, hsound]

theorem run_read_exposures (hsound : fw.poisoned = false) :
    (ask (.read .exposures)).run (alone faults) fw = (.ok fw.exposed, fw) := by
  rw [run_ask]
  exact underLock_sound hsound _ _

theorem run_list (hsound : fw.poisoned = false) :
    (ask .list).run (alone faults) fw = (.ok (listed fw.exposed fw.peers), fw) := by
  rw [run_ask]
  exact underLock_sound hsound _ _

theorem run_persist (hsound : fw.poisoned = false) :
    persist.run (alone faults) fw =
      (faults.write.elim (.ok ()) fun fault => .error (.unwritten fault),
        { fw with file := fw.file.written fw.exposed faults.write }) := by
  unfold persist
  rw [Prog.run_bind, run_read_exposures hsound]
  exact run_ask _ _

theorem run_reconcile (hsound : fw.poisoned = false) :
    reconcile.run (alone faults) fw =
      if faults.apply then (.error .unapplied, fw)
      else (.ok (), { fw with applied := some fw.ruleset }) := by
  have hmesh : (ask (.read .mesh)).run (alone faults) fw = (.ok fw.meshAddr, fw) := run_ask _ _
  have hpeers : (ask (.read .peers)).run (alone faults) fw = (.ok fw.peers, fw) := run_ask _ _
  unfold reconcile
  rw [Prog.run_bind, hmesh]
  dsimp only
  rw [Prog.run_bind, run_read_exposures hsound]
  dsimp only
  rw [Prog.run_bind, hpeers]
  exact run_ask _ _

theorem install_error {α : Type} {rest : FirewallM α} (hsound : fw.poisoned = false)
    (hrest : ∀ after : Firewall, after.poisoned = false →
      ∀ stop last, rest.run (alone faults) after ≠ (.error stop, last))
    (hrun : (persist >>= fun _ => reconcile >>= fun _ => rest).run (alone faults) fw =
      (.error stop, fw')) :
    fw' = { fw with file := fw.file.written fw.exposed faults.write } := by
  rcases Prog.run_bind_error hrun with hpersist | ⟨_, written, hpersist, hrun⟩
  · rw [run_persist hsound, Prod.mk.injEq] at hpersist
    exact hpersist.2.symm
  · rw [run_persist hsound, Prod.mk.injEq] at hpersist
    obtain ⟨_, rfl⟩ := hpersist
    rcases Prog.run_bind_error hrun with hreconcile | ⟨_, applied, hreconcile, hrun⟩
    · rw [run_reconcile (by exact hsound)] at hreconcile
      split at hreconcile
      · cases hreconcile
        rfl
      · cases hreconcile
    · have hafter : applied.poisoned = false := by
        rw [run_reconcile (by exact hsound)] at hreconcile
        split at hreconcile
        · cases hreconcile
        · cases hreconcile
          exact hsound
      exact absurd hrun (hrest applied hafter _ _)

theorem underLock_ok {α : Type} {answer value : α} {after : Firewall}
    (hrun : fw.underLock answer after = (.ok value, fw')) :
    fw.poisoned = false ∧ value = answer ∧ fw' = after := by
  rcases underLock_cases hrun with ⟨hpanicked, _⟩ | ⟨hsound, hvalue, hafter⟩
  · cases hpanicked
  · cases hvalue
    exact ⟨hsound, rfl, hafter⟩

/-- A call that does not return `Ok` goes on from a section under the lock. -/
theorem run_section {o : FirewallOp} {α : Type} {f : o.Answer → FirewallM α} {answer : o.Answer}
    {after : Firewall} (hreturned : stop ≠ .panicked)
    (hrun : (ask o >>= f).run (alone faults) fw = (.error stop, fw'))
    (hexec : fw.exec faults o = fw.underLock answer after) :
    fw.poisoned = false ∧ (f answer).run (alone faults) after = (.error stop, fw') := by
  rcases Prog.run_bind_error hrun with hfirst | ⟨value, last, hfirst, hrest⟩
  · rw [run_ask, hexec] at hfirst
    rcases underLock_cases hfirst with ⟨hpanicked, _⟩ | ⟨_, hvalue, _⟩
    · cases hpanicked
      exact absurd rfl hreturned
    · cases hvalue
  · rw [run_ask, hexec] at hfirst
    obtain ⟨hsound, rfl, rfl⟩ := underLock_ok hfirst
    exact ⟨hsound, hrest⟩

def NameRefused (name : String) (exposed : List Exposed) : Prop :=
  validLabel name = false ∨ MAX_SERVICES_PER_DEVICE < distinctNames name exposed

theorem run_admitName {name : String} (hreturned : stop ≠ .panicked)
    (hrun : (admitName name).run (alone faults) fw = (.error stop, fw')) :
    fw' = fw ∧ NameRefused name fw.exposed := by
  unfold admitName at hrun
  dsimp only at hrun
  split at hrun
  · rename_i hinvalid
    cases hrun
    exact ⟨rfl, .inl (by simpa using hinvalid)⟩
  · obtain ⟨_, hrun⟩ := run_section hreturned hrun rfl
    split at hrun
    · rename_i hmany
      cases hrun
      exact ⟨rfl, .inr hmany⟩
    · cases hrun

theorem run_admitName_ok {name : String}
    (hrun : (admitName name).run (alone faults) fw = (.ok (), fw')) :
    fw' = fw ∧ ¬ NameRefused name fw.exposed := by
  unfold admitName at hrun
  dsimp only at hrun
  split at hrun
  · cases hrun
  · rename_i hvalid
    obtain ⟨distinct, counted, hdistinct, hrun⟩ := Prog.run_bind_ok hrun
    rw [run_ask] at hdistinct
    obtain ⟨_, rfl, rfl⟩ := underLock_ok hdistinct
    split at hrun
    · cases hrun
    · rename_i hfew
      cases hrun
      refine ⟨rfl, ?_⟩
      rintro (hinvalid | hmany)
      · exact hvalid (by simp [hinvalid])
      · exact hfew hmany

theorem list_returns (hsound : fw.poisoned = false) (stop : Stop) (last : Firewall) :
    (ask .list).run (alone faults) fw ≠ (.error stop, last) := by
  rw [run_list hsound]
  intro hrun
  cases hrun

end Firewall

namespace FirewallCall

open Firewall

variable {faults : Faults} {fw fw' : Firewall} {stop : Stop}

def changesExposures : FirewallCall → Bool
  | .updatePeers _ => false
  | .setMeshAddr _ => false
  | _ => true

def edit : FirewallCall → List Exposed → List Exposed
  | .expose proto port scope name kind =>
      put ⟨proto, port, scope, some (name.getD (defaultLabel port)), kind⟩
  | .unexpose proto port scope => close proto port scope
  | .exposeNamedScope name scope => fun exposed => (widen name scope exposed).2
  | .unexposeNamed name => closeNamed name
  | .updatePeers _ => id
  | .setMeshAddr _ => id

def Refused : FirewallCall → List Exposed → Prop
  | .expose _ port _ name _, exposed => NameRefused (name.getD (defaultLabel port)) exposed
  | _, _ => False

def leftover (call : FirewallCall) (faults : Faults) (fw : Firewall) : Firewall :=
  { fw with
    exposed := call.edit fw.exposed
    file := fw.file.written (call.edit fw.exposed) faults.write }

theorem run_settle {changed : Nat} (hsound : fw.poisoned = false)
    (hrun : (settle changed).run (alone faults) fw = (.error stop, fw')) :
    fw' = { fw with file := fw.file.written fw.exposed faults.write } := by
  unfold settle at hrun
  dsimp only at hrun
  split at hrun
  · apply install_error hsound _ hrun
    intro after hafter stop last hlist
    rcases Prog.run_bind_error hlist with hlist | ⟨_, _, _, hlist⟩
    · exact list_returns hafter _ _ hlist
    · cases hlist
  · rcases Prog.run_bind_error hrun with hlist | ⟨_, _, _, hlist⟩
    · exact absurd hlist (list_returns hsound _ _)
    · cases hlist

/-- A call that does not return `Ok` was refused, or failed after its change. -/
theorem run_error {call : FirewallCall} (hchanges : call.changesExposures = true)
    (hreturned : stop ≠ .panicked)
    (hrun : call.program.run (alone faults) fw = (.error stop, fw')) :
    call.Refused fw.exposed ∧ fw' = fw ∨
      ¬ call.Refused fw.exposed ∧ fw' = call.leftover faults fw := by
  cases call with
  | expose proto port scope name kind =>
      have hcall := Prog.run_map_error hrun
      unfold Fw.expose at hcall
      dsimp only at hcall
      rcases Prog.run_bind_error hcall with hadmit | ⟨_, admitted, hadmit, hrest⟩
      · obtain ⟨rfl, hrefused⟩ := run_admitName hreturned hadmit
        exact .inl ⟨hrefused, rfl⟩
      · obtain ⟨rfl, hadmitted⟩ := run_admitName_ok hadmit
        obtain ⟨hsound, hinstall⟩ := run_section hreturned hrest rfl
        exact .inr ⟨hadmitted, install_error (by exact hsound) (fun _ => list_returns) hinstall⟩
  | unexpose proto port scope =>
      have hcall := Prog.run_map_error hrun
      obtain ⟨hsound, hcall⟩ := run_section hreturned hcall rfl
      exact .inr ⟨id, install_error (by exact hsound) (fun _ => list_returns) hcall⟩
  | exposeNamedScope name scope =>
      have hcall := Prog.run_map_error hrun
      obtain ⟨hsound, hcall⟩ := run_section hreturned hcall rfl
      exact .inr ⟨id, run_settle (by exact hsound) hcall⟩
  | unexposeNamed name =>
      have hcall := Prog.run_map_error hrun
      obtain ⟨hsound, hcall⟩ := run_section hreturned hcall rfl
      obtain ⟨_, hcall⟩ := run_section hreturned hcall rfl
      have hfewer : ¬ fw.exposed.length < (closeNamed name fw.exposed).length :=
        Nat.not_lt.mpr (List.length_filter_le ..)
      obtain ⟨_, hcall⟩ := run_section hreturned hcall (if_neg hfewer)
      exact .inr ⟨id, run_settle (by exact hsound) hcall⟩
  | updatePeers peers => cases hchanges
  | setMeshAddr addr => cases hchanges

/-- A call is refused, or it changes none of the exposures and the write leaves the file as it
was. -/
def Harmless (call : FirewallCall) (faults : Faults) (fw : Firewall) : Prop :=
  call.Refused fw.exposed ∨
    call.edit fw.exposed = fw.exposed ∧ fw.file.written fw.exposed faults.write = fw.file

end FirewallCall

/-- The exposures, the file and the applied ruleset are as they were. -/
def Firewall.Unchanged (fw fw' : Firewall) : Prop :=
  fw'.exposed = fw.exposed ∧ fw'.file = fw.file ∧ fw'.applied = fw.applied

instance (fw fw' : Firewall) : Decidable (fw.Unchanged fw') :=
  inferInstanceAs (Decidable (_ ∧ _ ∧ _))

section

variable {call : FirewallCall} {faults : Faults} {fw fw' : Firewall} {stop : Stop}

theorem FirewallCall.leftover_unchanged :
    fw.Unchanged (call.leftover faults fw) ↔
      call.edit fw.exposed = fw.exposed ∧ fw.file.written fw.exposed faults.write = fw.file := by
  unfold Firewall.Unchanged leftover
  constructor
  · rintro ⟨hedit, hfile, _⟩
    dsimp only at hedit hfile
    rw [hedit] at hfile
    exact ⟨hedit, hfile⟩
  · rintro ⟨hedit, hfile⟩
    dsimp only
    rw [hedit]
    exact ⟨rfl, hfile, rfl⟩

def sshOpened : Exposed :=
  ⟨.tcp, 22, .allPeers, some "ssh", .port⟩

end

end UnityLan.Engine.Fw
