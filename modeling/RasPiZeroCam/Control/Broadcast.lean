import RasPiZeroCam.Control.WsClients
import RasPiZeroCam.Transition.Mutex

/-!
The broadcasts of `WsServer` while its clients come and go.

* `Sends`: what the broadcasts have sent, and what the one that goes through `clients_` has still to
  send; it is kept because nobody else can change the set meanwhile.
* `clients_served`: no pointer is used after its handler has returned, every broadcast reaches each
  client that stays registered and open exactly once, and the counts agree whenever no handler is
  on its way in or out.
-/

namespace RasPiZeroCam

open Transition System WsClients

/-- **Every client is served**: a pointer that a broadcast uses is that of a handler that has not
returned; a broadcast sends to nobody twice, and by its end to every client that is registered and
open; and while no handler is entering or leaving, the counts are those of the handlers. -/
structure ClientsServed {ι β : Type*} [DecidableEq ι] (s : WsClients ι β) : Prop where
  live : ∀ b ws, (s.broadcast b).uses = some ws →
    ∃ c, (s.handler c).alive = true ∧ s.address c = ws
  defined : ∀ b, s.broadcast b ≠ .dangling
  once : ∀ n c, s.sentTo n c ≤ 1
  all : ∀ b n, s.broadcast b = .unlock n →
    ∀ c, (s.handler c).registered = true → s.isOpen c = true → s.sentTo n c = 1
  counts : (∀ c, (s.handler c).settled = true) →
    s.clientCount = s.clients.length ∧ s.clients.length = s.handlers (·.alive)

namespace WsClients

variable {ι β : Type*} {onMessage : Option (Bytes → Bytes)} {s s' : WsClients ι β} {c : ι} {b : β}
  {n : ℕ} {todo todo' : List ℕ}

/-! ### Who has the mutex -/

/-- A handler, or a broadcast, is between its lock and its unlock. -/
def inside (s : WsClients ι β) : ι ⊕ β → Prop :=
  Sum.elim (fun c => (s.handler c).locks = true) fun b => (s.broadcast b).pending ≠ none

/-- `clients_mutex_` is with the one that is inside. -/
def Guarded (s : WsClients ι β) : Prop := Held s.inside s.mutex

/-- While the mutex is free, no broadcast is under way. -/
lemma Guarded.idle_of_free (hs : s.Guarded) (hfree : s.mutex = none) (b : β) :
    (s.broadcast b).pending = none :=
  of_not_not (hs.not_inside hfree (.inr b))

/-- Nor while a handler has it. -/
lemma Guarded.idle_of_locks (hs : s.Guarded) (hlocks : (s.handler c).locks = true) (b : β) :
    (s.broadcast b).pending = none := by
  refine of_not_not fun hpending => ?_
  cases hs.unique (x := Sum.inl c) (y := Sum.inr b) hlocks hpending

/-- While one broadcast is under way, no other is. -/
lemma Guarded.others (hs : s.Guarded) (hb : (s.broadcast b).pending ≠ none) {a : β} (hne : a ≠ b) :
    (s.broadcast a).pending = none := by
  refine of_not_not fun ha => hne ?_
  exact Sum.inr.inj (hs.unique (x := Sum.inr a) (y := Sum.inr b) ha hb)

/-- A handler changes its place; nobody else enters or leaves. -/
lemma inside_goto [DecidableEq ι] (s s' : WsClients ι β) (c : ι) (pc : WsHandlerPc)
    (a : s'.handler = (s.goto c pc).handler) (d : s'.broadcast = s.broadcast) :
    (s'.inside (.inl c) ↔ pc.locks = true) ∧
      ∀ x, x ≠ .inl c → (s'.inside x ↔ s.inside x) := by
  refine ⟨?_, ?_⟩
  · show (s'.handler c).locks = true ↔ _
    rw [a, goto_handler_self]
  · rintro (e | e) hx
    · show (s'.handler e).locks = true ↔ _
      rw [a, goto_handler_ne s pc fun hec => hx (congrArg Sum.inl hec)]
      rfl
    · show (s'.broadcast e).pending ≠ none ↔ _
      rw [d]
      rfl

/-- The steps of a handler. -/
lemma Guarded.handlerStep [DecidableEq ι] (hs : s.Guarded) {result : WsRead}
    (h : s.handlerStep onMessage c result = some s') : s'.Guarded := by
  -- a handler that stays inside, or outside
  have hkeep : ∀ pc : WsHandlerPc, pc.locks = (s.handler c).locks →
      s'.handler = (s.goto c pc).handler → s'.broadcast = s.broadcast → s'.mutex = s.mutex →
      s'.Guarded := by
    intro pc hlocks a d e
    obtain ⟨hc, hothers⟩ := inside_goto s s' c pc a d
    refine Held.keep hs (fun x => ?_) e
    by_cases hx : x = .inl c
    · subst hx
      rw [hc, hlocks]
      rfl
    · exact hothers x hx
  obtain ⟨pc, ds, hkind, -, -, rfl⟩ | ⟨hpc, rfl⟩ | ⟨hpc, rfl⟩ |
    ⟨_, _, _, _, _, hsection, ⟨hpc, hfree, rfl⟩ | ⟨hpc, rfl⟩ | ⟨hpc, rfl⟩⟩ := handlerStep_cases h
  · simp only [WsHandlerPc.kind, Prod.mk.injEq] at hkind
    exact hkeep pc hkind.2.2.2 rfl rfl rfl
  · exact hkeep .lockAdd (by rw [hpc]; rfl) rfl rfl rfl
  · exact hkeep .returned (by rw [hpc]; rfl) rfl rfl rfl
  · obtain ⟨hc, hothers⟩ := inside_goto s ({ s with mutex := _ }.goto c _) c _ rfl rfl
    refine Held.take hs hfree (hc.mpr ?_) hothers rfl
    cases hsection <;> rfl
  · cases hsection <;> exact hkeep _ (by rw [hpc]; rfl) rfl rfl rfl
  · obtain ⟨hc, hothers⟩ := inside_goto s ({ s with mutex := _ }.goto c _) c _ rfl rfl
    refine Held.release (x := Sum.inl c) hs ?_ (fun hin => ?_) hothers rfl
    · show (s.handler c).locks = true
      rw [hpc]
      cases hsection <;> rfl
    · have hlocks := hc.mp hin
      cases hsection <;> cases hlocks

@[simp] lemma advance_broadcast_self [DecidableEq β] (s : WsClients ι β) (b : β)
    (pc : BroadcastPc) : (s.advance b pc).broadcast b = pc := Function.update_self ..

lemma advance_broadcast_ne [DecidableEq β] {a : β} (s : WsClients ι β) (pc : BroadcastPc)
    (h : a ≠ b) : (s.advance b pc).broadcast a = s.broadcast a := Function.update_of_ne h ..

/-- A broadcast goes on; nobody else enters or leaves. -/
lemma inside_advance [DecidableEq β] (s s' : WsClients ι β) (b : β) (pc : BroadcastPc)
    (a : s'.handler = s.handler) (d : s'.broadcast = (s.advance b pc).broadcast) :
    (s'.inside (.inr b) ↔ pc.pending ≠ none) ∧
      ∀ x, x ≠ .inr b → (s'.inside x ↔ s.inside x) := by
  refine ⟨?_, ?_⟩
  · show (s'.broadcast b).pending ≠ none ↔ _
    rw [d, advance_broadcast_self]
  · rintro (e | e) hx
    · show (s'.handler e).locks = true ↔ _
      rw [a]
      rfl
    · show (s'.broadcast e).pending ≠ none ↔ _
      rw [d, advance_broadcast_ne s pc fun heb => hx (congrArg Sum.inr heb)]
      rfl

/-! ### What a broadcast has sent -/

/-- The broadcast `n` has still to send to the clients at the addresses `todo`, and has sent to all
others that are open. -/
structure Looped [DecidableEq ι] (s : WsClients ι β) (n : ℕ) (todo : List ℕ) : Prop where
  begun : n < s.broadcasts
  nodup : todo.Nodup
  clients : ∀ ws ∈ todo, ws ∈ s.clients
  yet : ∀ c, (s.handler c).registered = true → s.address c ∈ todo → s.sentTo n c = 0
  done : ∀ c, (s.handler c).registered = true → s.isOpen c = true → s.address c ∉ todo →
    s.sentTo n c = 1

/-- What the broadcasts have sent. -/
structure Sends [DecidableEq ι] (s : WsClients ι β) : Prop where
  fresh : ∀ n c, s.broadcasts ≤ n → s.sentTo n c = 0
  once : ∀ n c, s.sentTo n c ≤ 1
  looped : ∀ b n todo, (s.broadcast b).pending = some (n, todo) → s.Looped n todo
  defined : ∀ b, s.broadcast b ≠ .dangling

section Sends

variable [DecidableEq ι]

/-- A step that sends nothing, and after which the registered clients were so before, in the same
set. -/
lemma Looped.frame (h : s.Looped n todo) (hsent : ∀ n c, s'.sentTo n c = s.sentTo n c)
    (hreg : ∀ c, (s'.handler c).registered = true → (s.handler c).registered = true ∧
      s'.address c = s.address c ∧ (s'.isOpen c = true → s.isOpen c = true))
    (a : s'.clients = s.clients) (d : s'.broadcasts = s.broadcasts) : s'.Looped n todo where
  begun := d ▸ h.begun
  nodup := h.nodup
  clients := a ▸ h.clients
  yet c hc hin := by
    obtain ⟨hc, haddress, -⟩ := hreg c hc
    rw [hsent]
    exact h.yet c hc (haddress ▸ hin)
  done c hc hopen hin := by
    obtain ⟨hc, haddress, hopened⟩ := hreg c hc
    rw [hsent]
    exact h.done c hc (hopened hopen) (haddress ▸ hin)

/-- Such a step, or any that sends nothing while no broadcast is under way. -/
lemma Sends.frame (hs : s.Sends) (hsent : ∀ n c, s'.sentTo n c = s.sentTo n c)
    (h : (∀ b, (s.broadcast b).pending = none) ∨ s'.clients = s.clients ∧
      ∀ c, (s'.handler c).registered = true → (s.handler c).registered = true ∧
        s'.address c = s.address c ∧ (s'.isOpen c = true → s.isOpen c = true))
    (a : s'.broadcast = s.broadcast) (d : s'.broadcasts = s.broadcasts) :
    s'.Sends where
  fresh n c hn := by
    rw [hsent]
    exact hs.fresh n c (d ▸ hn)
  once n c := by
    rw [hsent]
    exact hs.once n c
  looped b n todo hpending := by
    rw [a] at hpending
    rcases h with hidle | ⟨hclients, hreg⟩
    · rw [hidle b] at hpending
      cases hpending
    · exact (hs.looped b n todo hpending).frame hsent hreg hclients d
  defined := a ▸ hs.defined

/-- Replies are not broadcasts. -/
lemma sentTo_append_replies {ds : List (WsDelivery ι)} (hds : ∀ d ∈ ds, d.broadcast = none)
    (a : s'.deliveries = s.deliveries ++ ds) (n : ℕ) (c : ι) : s'.sentTo n c = s.sentTo n c := by
  have hnone : ds.countP (fun d => d.broadcast = some n && d.client = c) = 0 := by
    refine List.countP_eq_zero.mpr fun d hd => ?_
    simp [hds d hd]
  rw [sentTo, a, List.countP_append, hnone, Nat.add_zero, sentTo]

lemma sentTo_append_sent {d : ι} {json : Bytes} {m : ℕ}
    (a : s'.deliveries = s.deliveries ++ [⟨d, json, some m⟩]) (n : ℕ) (c : ι) :
    s'.sentTo n c = s.sentTo n c + if m = n ∧ d = c then 1 else 0 := by
  rw [sentTo, a, List.countP_append, ← sentTo]
  by_cases h : m = n ∧ d = c
  · obtain ⟨rfl, rfl⟩ := h
    simp
  · rw [if_neg h, List.countP_singleton, if_neg (by simpa using h)]

/-- The steps of a handler: one that has the mutex is alone. -/
lemma Sends.handlerStep (hs : s.Sends) (hg : s.Guarded) {result : WsRead}
    (h : s.handlerStep onMessage c result = some s') : s'.Sends := by
  have hreg : ∀ pc : WsHandlerPc, pc.registered = (s.handler c).registered →
      s'.handler = (s.goto c pc).handler → s'.address = s.address → s'.isOpen = s.isOpen →
      ∀ d, (s'.handler d).registered = true → (s.handler d).registered = true ∧
        s'.address d = s.address d ∧ (s'.isOpen d = true → s.isOpen d = true) := by
    intro pc hpc a e f d hd
    refine ⟨?_, congrFun e d, fun hopen => f ▸ hopen⟩
    rw [a] at hd
    refine goto_forall (P := fun x q => q.registered = true → (s.handler x).registered = true)
      (fun hq => hpc ▸ hq) (fun _ _ => id) d hd
  obtain ⟨pc, ds, hkind, -, hds, rfl⟩ | ⟨hpc, rfl⟩ | ⟨hpc, rfl⟩ |
    ⟨_, _, _, _, _, hsection, ⟨hpc, hfree, rfl⟩ | ⟨hpc, rfl⟩ | ⟨hpc, rfl⟩⟩ := handlerStep_cases h
  · simp only [WsHandlerPc.kind, Prod.mk.injEq] at hkind
    exact hs.frame (sentTo_append_replies hds rfl) (Or.inr ⟨rfl, hreg pc hkind.2.2.1 rfl rfl rfl⟩)
      rfl rfl
  · exact hs.frame (fun _ _ => rfl)
      (Or.inr ⟨rfl, hreg .lockAdd (by rw [hpc]; rfl) rfl rfl rfl⟩) rfl rfl
  · exact hs.frame (fun _ _ => rfl)
      (Or.inr ⟨rfl, hreg .returned (by rw [hpc]; rfl) rfl rfl rfl⟩) rfl rfl
  · exact hs.frame (fun _ _ => rfl) (Or.inl (hg.idle_of_free hfree)) rfl rfl
  · refine hs.frame (fun _ _ => rfl) (Or.inl (hg.idle_of_locks (c := c) ?_)) rfl rfl
    rw [hpc]
    cases hsection <;> rfl
  · refine hs.frame (fun _ _ => rfl) (Or.inl (hg.idle_of_locks (c := c) ?_)) rfl rfl
    rw [hpc]
    cases hsection <;> rfl

/-- A new handler is not registered. -/
lemma Sends.connect (hs : s.Sends) {ws : ℕ} (h : s.connect c ws = some s') : s'.Sends := by
  rw [WsClients.connect] at h
  split_ifs at h with hnew
  cases h
  refine hs.frame (fun _ _ => rfl) (Or.inr ⟨rfl, fun d hd => ?_⟩) rfl rfl
  by_cases hdc : d = c
  · subst hdc
    simp [WsHandlerPc.registered] at hd
  · simp only [Function.update_of_ne hdc] at hd ⊢
    exact ⟨hd, trivial, id⟩

/-- A pointer that a broadcast uses is in `clients_`. -/
lemma Sends.uses_mem (hs : s.Sends) {ws : ℕ} (h : (s.broadcast b).uses = some ws) :
    ws ∈ s.clients := by
  obtain ⟨n, todo, hpending⟩ : ∃ n todo, (s.broadcast b).pending = some (n, ws :: todo) := by
    cases hpc : s.broadcast b <;> rw [hpc] at h <;> cases h <;> exact ⟨_, _, rfl⟩
  exact (hs.looped b n _ hpending).clients ws List.mem_cons_self

/-- The loop goes on past a client that is closed, or in another order. -/
lemma Looped.skip (h : s.Looped n todo) (ht : s.Tracked) (hrest : todo'.Perm todo ∨
    ∃ ws, todo = ws :: todo' ∧ (ws = 0 ∨ ∃ c, s.owner? ws = some c ∧ s.isOpen c = false)) :
    s.Looped n todo' := by
  rcases hrest with hperm | ⟨ws, rfl, hskip⟩
  · exact ⟨h.begun, hperm.nodup_iff.mpr h.nodup, fun ws hws => h.clients ws (hperm.mem_iff.mp hws),
      fun c hc hin => h.yet c hc (hperm.mem_iff.mp hin),
      fun c hc hopen hin => h.done c hc hopen fun hmem => hin (hperm.mem_iff.mpr hmem)⟩
  · refine ⟨h.begun, h.nodup.of_cons, fun v hv => h.clients v (List.mem_cons_of_mem ws hv),
      fun c hc hin => h.yet c hc (List.mem_cons_of_mem ws hin), fun c hc hopen hin => ?_⟩
    refine h.done c hc hopen fun hmem => ?_
    rcases List.mem_cons.mp hmem with heq | hmem
    · have halive := alive_of_registered hc
      rcases hskip with hnull | ⟨d, howner, hclosed⟩
      · exact ht.nonNull c halive (heq.trans hnull)
      · obtain ⟨hd, haddress⟩ := owner?_eq_some howner
        obtain rfl := ht.apart c d halive hd (heq.trans haddress.symm)
        rw [hopen] at hclosed
        cases hclosed
    · exact hin hmem

/-- The client at the head gets the text. -/
lemma Looped.send (s' : WsClients ι β) {ws : ℕ} {d : ι} {json : Bytes}
    (h : s.Looped n (ws :: todo)) (ht : s.Tracked)
    (howner : s.owner? ws = some d) (a : s'.deliveries = s.deliveries ++ [⟨d, json, some n⟩])
    (e : s'.handler = s.handler) (f : s'.address = s.address)
    (i : s'.isOpen = s.isOpen) (j : s'.clients = s.clients)
    (k : s'.broadcasts = s.broadcasts) : s.sentTo n d = 0 ∧ s'.Looped n todo := by
  obtain ⟨hd, haddress⟩ := owner?_eq_some howner
  have hregistered : (s.handler d).registered = true := by
    obtain ⟨x, hx, heq⟩ := (ht.clients ws).mp (h.clients ws List.mem_cons_self)
    rwa [ht.apart x d (alive_of_registered hx) hd (heq.trans haddress.symm)] at hx
  have hyet : s.sentTo n d = 0 := h.yet d hregistered (by rw [haddress]; exact List.mem_cons_self)
  refine ⟨hyet, k ▸ h.begun, h.nodup.of_cons,
    fun v hv => j ▸ h.clients v (List.mem_cons_of_mem ws hv), fun c hc hin => ?_,
    fun c hc hopen hin => ?_⟩
  · rw [e] at hc
    rw [f] at hin
    have hne : ¬ (n = n ∧ d = c) := by
      rintro ⟨-, rfl⟩
      exact (List.nodup_cons.mp h.nodup).1 (haddress ▸ hin)
    rw [sentTo_append_sent a, if_neg hne, h.yet c hc (List.mem_cons_of_mem ws hin)]
  · rw [e] at hc
    rw [f] at hin
    rw [i] at hopen
    rw [sentTo_append_sent a]
    by_cases hcd : d = c
    · subst hcd
      rw [hyet, if_pos ⟨rfl, rfl⟩]
    · rw [if_neg fun hand => hcd hand.2]
      refine h.done c hc hopen fun hmem => ?_
      rcases List.mem_cons.mp hmem with heq | hmem
      · exact hcd (ht.apart d c hd (alive_of_registered hc) (haddress.trans heq.symm))
      · exact hin hmem

variable [DecidableEq β]

/-- What all broadcasts but one have done before. -/
lemma Sends.advance (hs : s.Sends) (hg : s.Guarded) (pc : BroadcastPc)
    (hsent : ∀ n c, s.broadcasts ≤ n → s'.sentTo n c = 0) (honce : ∀ n c, s'.sentTo n c ≤ 1)
    (hb : (s.broadcast b).pending ≠ none ∨ s.mutex = none) (hpc : pc ≠ .dangling)
    (hlooped : ∀ n todo, pc.pending = some (n, todo) → s'.Looped n todo)
    (a : s'.broadcast = (s.advance b pc).broadcast)
    (d : s.broadcasts ≤ s'.broadcasts) : s'.Sends where
  fresh n c hn := hsent n c (d.trans hn)
  once := honce
  looped e n todo hpending := by
    rw [a] at hpending
    by_cases he : e = b
    · subst he
      rw [advance_broadcast_self] at hpending
      exact hlooped n todo hpending
    · rw [advance_broadcast_ne s pc he] at hpending
      rcases hb with hb | hfree
      · rw [hg.others hb he] at hpending
        cases hpending
      · rw [hg.idle_of_free hfree e] at hpending
        cases hpending
  defined e := by
    rw [a]
    by_cases he : e = b
    · subst he
      rwa [advance_broadcast_self]
    · rw [advance_broadcast_ne s pc he]
      exact hs.defined e

end Sends

/-! ### Every reachable state -/

/-- The pointers, the mutex and the broadcasts. -/
structure Serving [DecidableEq ι] (s : WsClients ι β) : Prop where
  tracked : s.Tracked
  guarded : s.Guarded
  sends : s.Sends

/-- At rest, a handler is counted, or registered, as long as it is alive. -/
lemma handlers_settled {p : WsHandlerPc → Bool} (hp : ∀ pc, pc.settled = true → p pc = pc.alive)
    (h : ∀ c, (s.handler c).settled = true) : s.handlers p = s.handlers (·.alive) := by
  refine List.countP_congr fun c _ => ?_
  rw [hp _ (h c)]

section Serving

variable [DecidableEq ι]

lemma Serving.new : (WsClients.new ι β).Serving where
  tracked := by
    refine ⟨fun c => ?_, List.nodup_nil, fun c d hc => ?_, fun c hc => ?_, fun ws => ?_,
      List.nodup_nil, rfl, rfl⟩
    · simp [WsClients.new]
    · cases hc
    · cases hc
    · simp [WsClients.new, WsHandlerPc.registered]
  guarded := by
    rintro (c | b)
    · simp [inside, WsClients.new, WsHandlerPc.locks]
    · simp [inside, WsClients.new, BroadcastPc.pending]
  sends := by
    refine ⟨fun _ _ _ => rfl, fun _ _ => Nat.zero_le 1, fun b n todo h => ?_, fun b h => ?_⟩
    · cases h
    · cases h

/-- What the invariants are for. -/
lemma Serving.served (hs : s.Serving) : ClientsServed s where
  live b ws huses := by
    obtain ⟨c, hc, haddress⟩ := (hs.tracked.clients ws).mp (hs.sends.uses_mem huses)
    exact ⟨c, alive_of_registered hc, haddress⟩
  defined := hs.sends.defined
  once := hs.sends.once
  all b n hpc c hc hopen :=
    (hs.sends.looped b n [] (by rw [hpc]; rfl)).done c hc hopen List.not_mem_nil
  counts h := by
    have hcounted : s.handlers (·.counted) = s.handlers (·.alive) :=
      handlers_settled (fun pc hpc => by cases pc <;> first | rfl | cases hpc) h
    have hregistered : s.handlers (·.registered) = s.handlers (·.alive) :=
      handlers_settled (fun pc hpc => by cases pc <;> first | rfl | cases hpc) h
    have hsize : s.clients.length = s.handlers (·.alive) := hs.tracked.size.trans hregistered
    refine ⟨?_, hsize⟩
    calc s.clientCount = s.handlers (·.counted) := hs.tracked.count
      _ = s.handlers (·.alive) := by rw [hcounted]
      _ = s.clients.length := by rw [hsize]

variable [DecidableEq β]

/-- The steps of a broadcast: it finds no pointer that dangles. -/
lemma Serving.broadcastStep (hs : s.Serving) {next : ℕ}
    (h : s.broadcastStep b next = some s') : s'.Serving := by
  obtain ⟨ht, hg, hsends⟩ := hs
  -- a broadcast that keeps the mutex
  have hkeep : ∀ pc : BroadcastPc, (s.broadcast b).pending ≠ none → pc.pending ≠ none →
      s'.handler = s.handler → s'.broadcast = (s.advance b pc).broadcast → s'.mutex = s.mutex →
      s'.Guarded := by
    intro pc hb hpc a d e
    obtain ⟨hin, hothers⟩ := inside_advance s s' b pc a d
    refine Held.keep hg (fun x => ?_) e
    by_cases hx : x = .inr b
    · subst hx
      exact iff_of_true (hin.mpr hpc) hb
    · exact hothers x hx
  obtain ⟨json, hpc, hfree, rfl⟩ | ⟨n, todo, pc, todo', hb, hpc, hrest, rfl⟩ |
    ⟨n, json, ws, todo, c, hpc, howner, rfl⟩ | ⟨n, hpc, rfl⟩ | ⟨ws, huses, howner, -⟩ :=
    broadcastStep_cases h
  · obtain ⟨hin, hothers⟩ := inside_advance s ({ s with mutex := _, broadcasts := _ }.advance b _) b
      (.loop s.broadcasts json s.clients) rfl rfl
    refine ⟨ht.congr rfl,
      Held.take hg hfree (hin.mpr (by simp [BroadcastPc.pending])) hothers rfl, ?_⟩
    refine hsends.advance hg _ hsends.fresh hsends.once (Or.inr hfree) (by simp) ?_ rfl
      (Nat.le_succ _)
    rintro n todo hpending
    cases hpending
    refine ⟨Nat.lt_succ_self _, ht.set, fun ws => id, fun c _ _ => hsends.fresh _ c le_rfl,
      fun c hc _ hout => ?_⟩
    exact absurd ((ht.clients _).mpr ⟨c, hc, rfl⟩) hout
  · have hsome : (s.broadcast b).pending ≠ none := by simp [hb]
    refine ⟨ht.congr rfl, hkeep pc hsome (by simp [hpc]) rfl rfl rfl, ?_⟩
    refine hsends.advance hg _ hsends.fresh hsends.once (Or.inl hsome) ?_ ?_ rfl le_rfl
    · rintro rfl
      cases hpc
    · intro m rest hpending
      obtain ⟨rfl, rfl⟩ : n = m ∧ todo' = rest := by simpa [hpc] using hpending
      exact ((hsends.looped b n todo hb).skip ht hrest).frame (fun _ _ => rfl)
        (fun c hc => ⟨hc, rfl, id⟩) rfl rfl
  · have hb : (s.broadcast b).pending = some (n, ws :: todo) := by rw [hpc]; rfl
    have hsome : (s.broadcast b).pending ≠ none := by simp [hb]
    have hloop := hsends.looped b n (ws :: todo) hb
    obtain ⟨hyet, hloop'⟩ := Looped.send
      ((s.deliver ⟨c, json, some n⟩).advance b (.loop n json todo)) hloop ht howner rfl rfl
      rfl rfl rfl rfl
    refine ⟨ht.congr rfl,
      hkeep _ hsome (by simp [BroadcastPc.pending]) rfl rfl rfl, ?_⟩
    refine hsends.advance hg (.loop n json todo) (fun m d hm => ?_) (fun m d => ?_) (Or.inl hsome)
      (by simp) ?_ rfl le_rfl
    · have hne : n ≠ m := (hloop.begun.trans_le hm).ne
      rw [sentTo_append_sent rfl, if_neg fun hand => hne hand.1, hsends.fresh m d hm]
    · rw [sentTo_append_sent rfl]
      split_ifs with hand
      · obtain ⟨rfl, rfl⟩ := hand
        rw [hyet]
      · exact hsends.once m d
    · rintro m rest hpending
      cases hpending
      exact hloop'
  · obtain ⟨hin, hothers⟩ := inside_advance s ({ s with mutex := none }.advance b .idle) b .idle
      rfl rfl
    have hb : (s.broadcast b).pending ≠ none := by simp [hpc, BroadcastPc.pending]
    have hout : ¬ _ := fun hidle => hin.mp hidle rfl
    refine ⟨ht.congr rfl, Held.release (x := Sum.inr b) hg hb hout hothers rfl, ?_⟩
    refine hsends.advance hg .idle hsends.fresh hsends.once (Or.inl hb) (by simp) ?_ rfl le_rfl
    rintro n todo hpending
    cases hpending
  · exact absurd howner (ht.owner?_isSome (hsends.uses_mem huses))

/-- Every step. -/
lemma Serving.step (hs : s.Serving) {e : Step ι β}
    (h : (wsClients ι β onMessage).step s e = some s') : s'.Serving := by
  cases e with
  | connect c ws =>
      refine ⟨hs.tracked.connect h, ?_, hs.sends.connect h⟩
      simp only [wsClients, WsClients.connect] at h
      split_ifs at h with hnew
      cases h
      refine Held.keep hs.guarded (fun x => ?_) rfl
      rcases x with d | b
      · by_cases hdc : d = c
        · subst hdc
          simp [inside, hnew.1, WsHandlerPc.locks]
        · simp [inside, hdc]
      · exact Iff.rfl
  | handler c result =>
      exact ⟨hs.tracked.handlerStep h, hs.guarded.handlerStep h, hs.sends.handlerStep hs.guarded h⟩
  | close c =>
      cases h
      refine ⟨hs.tracked.congr rfl, hs.guarded,
        hs.sends.frame (fun _ _ => rfl) (Or.inr ⟨rfl, fun d hd => ⟨hd, rfl, fun hopen => ?_⟩⟩)
          rfl rfl⟩
      by_cases hdc : d = c
      · subst hdc
        simp at hopen
      · simpa [hdc] using hopen
  | call b json =>
      simp only [wsClients] at h
      split_ifs at h with hidle
      cases h
      obtain ⟨hin, hothers⟩ := inside_advance s (s.advance b (.lock json)) b (.lock json) rfl rfl
      have hnone : (s.broadcast b).pending = none := by rw [hidle]; rfl
      refine ⟨hs.tracked.congr rfl, Held.keep hs.guarded (fun x => ?_) rfl, ?_⟩
      · by_cases hx : x = .inr b
        · subst hx
          exact iff_of_false (fun hb => hin.mp hb rfl) fun hb => hb hnone
        · exact hothers x hx
      · have hnot : ∀ e, (s.advance b (.lock json)).broadcast e = s.broadcast e ∨
            (s.advance b (.lock json)).broadcast e = .lock json := by
          intro e
          by_cases he : e = b
          · exact Or.inr (he ▸ advance_broadcast_self s b _)
          · exact Or.inl (advance_broadcast_ne s _ he)
        refine ⟨hs.sends.fresh, hs.sends.once, fun e n todo hpending => ?_, fun e => ?_⟩
        · rcases hnot e with heq | heq <;> rw [heq] at hpending
          · exact (hs.sends.looped e n todo hpending).frame (fun _ _ => rfl)
              (fun c hc => ⟨hc, rfl, id⟩) rfl rfl
          · cases hpending
        · rcases hnot e with heq | heq <;> rw [heq]
          · exact hs.sends.defined e
          · simp
  | broadcast b next => exact hs.broadcastStep h

/-- **Every run.** -/
lemma Serving.of_reach {C : WsClients ι β → Step ι β → Prop}
    (h : (wsClients ι β onMessage).Reach C s) : s.Serving := by
  refine h.invariant _ ?_ fun s e s' _ hs _ hst => hs.step hst
  rintro s rfl
  exact Serving.new

end Serving

end WsClients

/-- **Every client is served**: in every interleaving of connections that open, exchange messages
and close with calls of `broadcast`. -/
theorem clients_served {ι β : Type*} [DecidableEq ι] [DecidableEq β]
    {onMessage : Option (Bytes → Bytes)} {s : WsClients ι β}
    (h : (wsClients ι β onMessage).Reach (fun _ _ => True) s) : ClientsServed s :=
  (Serving.of_reach h).served

namespace WsClients

/-- A connection is accepted, and its handler enters. -/
def enters (c ws : ℕ) : List (Step ℕ Unit) :=
  .connect c ws :: List.replicate 4 (.handler c .fail)

/-- Two clients enter; a broadcast takes the second first, and while it sends to it, the first gets
a reply; then the second is closed and leaves. -/
def oneBroadcast : List (Step ℕ Unit) :=
  enters 0 100 ++ enters 1 200 ++ [.call () [7], .broadcast () 0, .broadcast () 200,
    .broadcast () 0, .handler 0 (.text [1]), .broadcast () 0, .handler 0 .fail] ++
    List.replicate 5 (.broadcast () 100) ++ [.close 1] ++ List.replicate 5 (.handler 1 .fail)

end WsClients

/-- Both have the text; the one that is left is counted. -/
theorem oneBroadcast_served : ∃ s, (wsClients ℕ Unit (some id)).exec (fun _ _ => true)
      (.new ℕ Unit) oneBroadcast = some s ∧
    s.deliveries.map (·.client) = [1, 0, 0] ∧ s.clients = [100] ∧ s.clientCount = 1 ∧
      ClientsServed s := by
  have hrun : ((wsClients ℕ Unit (some id)).exec (fun _ _ => true) (.new ℕ Unit)
      oneBroadcast).map (fun s => (s.deliveries.map (·.client), s.clients, s.clientCount)) =
        some ([1, 0, 0], [100], 1) := by decide
  obtain ⟨s, hs, hend⟩ := Option.map_eq_some_iff.mp hrun
  obtain ⟨hclients, hset, hcount⟩ : s.deliveries.map (·.client) = [1, 0, 0] ∧
      s.clients = [100] ∧ s.clientCount = 1 := by simpa using hend
  exact ⟨s, hs, hclients, hset, hcount, clients_served (.of_exec_check (fun _ _ _ => trivial)
    (show (wsClients ℕ Unit (some id)).init (.new ℕ Unit) from rfl) hs)⟩

end RasPiZeroCam
