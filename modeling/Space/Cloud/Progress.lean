import Space.Cloud.Serializable
import Space.Effects.Progress

/-! # Requests come to an end

    A handler makes at most two calls of the stores, and the stores answer
    every call. So a request is answered after two calls of its own, whatever
    the other requests do, and a server can always be brought to a state in
    which nothing is running.

    A call of a store is one step. How long it waits for the lock of the
    store is not told here.

    The one thing a call can lack is an unused id for a new file. A file
    costs a call, so there is always one for the first 2^127 requests. -/

namespace Space

open Rust Outcome Data Effects

/-! ## Section 1: Handlers are short -/

theorem atMost_respond {α : Type} (f : α → Response) (x : Res α) (n : Nat) :
    Prog.AtMost (I := StoreI) (Fallible.onOk (fun a => .ret (ok (f a))) x) n := by
  cases x <;> exact trivial

theorem atMost_fetch (id : ChunkId) (range : Option HeaderValue) (size : UInt64) :
    (Api.fetch id range size).AtMost 1 := by
  cases range with
  | none => exact fun r => atMost_respond _ r 0
  | some range =>
    simp only [Api.fetch, Api.getChunkRange, Api.callBlobs, Prog.perform, ↓Fallible.bind_eq,
      ↓Fallible.lift_eq, ↓Fallible.pure_eq, Prog.bind_ret, Prog.bind_call]
    cases okOr (parseRange (range.toStr.getD "") size)
        (SpaceError.invalidParam "malformed Range header") with
    | err e => exact trivial
    | panic => exact trivial
    | ok p =>
      simp only [Fallible.onOk_ok]
      cases rangeLength p.1 p.2 with
      | err e => exact trivial
      | panic => exact trivial
      | ok length => exact fun r => atMost_respond _ r 0

/-- **A handler makes at most two calls.** -/
theorem handle_atMost [UuidCrate] (req : Request) : (Api.handle req).AtMost 2 := by
  cases hreq : Api.metaCall req with
  | some x =>
    rw [Api.handle_of_metaCall hreq]
    cases x with
    | err e => exact trivial
    | panic => exact trivial
    | ok call => exact fun r => atMost_respond _ r 1
  | none =>
    cases req with
    | putChunk text body =>
      rw [Api.handle_putChunk]
      cases ChunkId.parse text with
      | err e => exact trivial
      | panic => exact trivial
      | ok id =>
        intro r
        cases r with
        | ok _ => exact fun r => atMost_respond _ r 0
        | err e => exact trivial
        | panic => exact trivial
    | getChunk text range =>
      rw [Api.handle_getChunk]
      cases ChunkId.parse text with
      | err e => exact trivial
      | panic => exact trivial
      | ok id =>
        intro r
        cases r with
        | ok size => exact atMost_fetch id range size
        | err e => exact trivial
        | panic => exact trivial
    | _ => cases hreq

/-! ## Section 2: Room for new files -/

theorem card_keys_insert {K V : Type} [DecidableEq K] (t : Table K V) (k : K) (v : V) :
    (Finmap.insert k v t).keys.card ≤ t.keys.card + 1 := by
  have hkeys : (Finmap.insert k v t).keys = insert k t.keys := by
    ext key
    simp [Finmap.mem_keys]
  rw [hkeys]
  exact Finset.card_insert_le k t.keys

/-- Some id is not the id of a file. -/
theorem exists_unused {g : Inner} (h : g.files.keys.card < 2 ^ 128) :
    ∃ id : FileId, g.files.lookup id = none := by
  by_contra hall
  push Not at hall
  -- otherwise every 128-bit value is the id of a file
  have hcard : (Finset.range (2 ^ 128)).card ≤ g.files.keys.card := by
    apply Finset.card_le_card_of_injOn fun n => (⟨⟨.ofNat 128 n⟩⟩ : FileId)
    · intro n _
      apply Finmap.mem_keys.mpr
      apply Finmap.lookup_isSome.mp
      exact Option.isSome_iff_ne_none.mpr (hall _)
    · intro a ha b hb hab
      injection hab with hab
      injection hab with hab
      have hnat := congrArg BitVec.toNat hab
      rw [BitVec.toNat_ofNat, BitVec.toNat_ofNat] at hnat
      rw [Finset.coe_range, Set.mem_Iio] at ha hb
      rw [Nat.mod_eq_of_lt ha, Nat.mod_eq_of_lt hb] at hnat
      exact hnat
  rw [Finset.card_range] at hcard
  omega

section progress

variable [Blake3]

/-- A call adds at most one file. -/
theorem files_step {op : StoreOp} {s s' : AppState} {r : Res op.Value}
    (hs : StoreOp.Step op s r s') :
    s'.metaStore.files.keys.card ≤ s.metaStore.files.keys.card + 1 := by
  obtain ⟨env, _, heq⟩ := hs
  cases op with
  | blobs op =>
    cases heq
    exact Nat.le_succ _
  | metadata op =>
    cases heq
    show (op.exec env s.metaStore).2.files.keys.card ≤ _
    have hcall := exec_call env s.metaStore op
    generalize (op.exec env s.metaStore).1 = r at hcall
    generalize (op.exec env s.metaStore).2 = g' at hcall
    cases hcall with
    | refused e => exact Nat.le_succ _
    | dangling _ => exact Nat.le_succ _
    | found _ => exact Nat.le_succ _
    | wrote hw =>
      cases hw with
      | file _ _ => exact card_keys_insert _ _ _
      | chunk _ _ => exact Nat.le_succ _
      | manifest _ _ _ => exact Nat.le_succ _
      | version _ _ => exact Nat.le_succ _
      | commit _ _ =>
        unfold Inner.commit Inner.setCurrent
        simp only
        split
        · exact card_keys_insert _ _ _
        · exact Nat.le_succ _

omit [Blake3] in
/-- What the store needs to answer every call that is waiting. -/
structure Ready (c : Server) : Prop where
  room : 2 * c.threads.length < 2 ^ 128
  paced : c.Paced 2
  files : c.store.metaStore.files.keys.card ≤ c.calls

/-- The store answers every call. -/
theorem Ready.enabled {c : Server} (h : Ready c) (op : StoreOp) :
    ∃ r s', StoreOp.Step op c.store r s' := by
  have hcalls := h.paced.calls_le
  have hfiles := h.files
  have hroom := h.room
  obtain ⟨id, hid⟩ := exists_unused (g := c.store.metaStore) (by omega)
  have hfresh : op.Fresh (Env.sample id.uuid.bits 0) c.store := by
    cases op with
    | blobs op => exact trivial
    | metadata op =>
      cases op with
      | createFile _ _ _ => exact fun _ => hid
      | _ => exact trivial
  exact ⟨_, _, _, hfresh, rfl⟩

variable [UuidCrate]

/-- The requests that are here keep the store ready. -/
theorem Ready.step {c c' : Server} (h : Ready c) (hs : Pool.Step Api.handle StoreOp.Step c c')
    (hreqs : c'.requests = c.requests) : Ready c' := by
  have hlen : c'.threads.length = c.threads.length := by
    simpa [Pool.requests] using congrArg List.length hreqs
  refine ⟨hlen ▸ h.room, h.paced.step handle_atMost hs, ?_⟩
  have hfiles := h.files
  cases hs with
  | arrive req =>
    exfalso
    simp at hlen
  | call i t op k r s' hi hp hstep =>
    obtain ⟨hcalls, _, _⟩ := Pool.call_counts h.paced hi hp r s'
    have hcard := files_step hstep
    rw [hcalls]
    show s'.metaStore.files.keys.card ≤ _
    omega

/-- A server that has received fewer than 2^127 requests is ready. -/
theorem ready_reachable {c : Server} (h : c.Reachable) (hroom : 2 * c.threads.length < 2 ^ 128) :
    Ready c := by
  have hboth : c.Paced 2 ∧ c.store.metaStore.files.keys.card ≤ c.calls := by
    clear hroom
    induction h with
    | refl => exact ⟨fun _ ht => absurd ht List.not_mem_nil, Nat.le_refl 0⟩
    | tail _ hs ih =>
      obtain ⟨hpaced, hfiles⟩ := ih
      refine ⟨hpaced.step handle_atMost hs, ?_⟩
      cases hs with
      | arrive req => simpa [Pool.calls] using hfiles
      | call i t op k r s' hi hp hstep =>
        obtain ⟨hcalls, _, _⟩ := Pool.call_counts hpaced hi hp r s'
        have hcard := files_step hstep
        rw [hcalls]
        show s'.metaStore.files.keys.card ≤ _
        omega
  exact ⟨hroom, hboth.1, hboth.2⟩

/-- Whatever is running can be brought to its end. -/
theorem Ready.finish {c : Server} (h : Ready c) :
    ∃ c', c.Steps c' ∧ c'.Quiescent ∧ c'.requests = c.requests :=
  h.paced.finish handle_atMost (fun _ _ hready hs hreqs => hready.step hs hreqs)
    (fun _ _ op _ hready _ _ => hready.enabled op) h

end progress

/-! ## Section 3: The results -/

/-- **Requests come to an end.** In every state of every run, as long as there
    are ids left for all requests, a request has made at most two calls, it
    has been answered once it has made two, and from the state all requests
    that have arrived can be brought to their end. -/
theorem requests_complete [UuidCrate] [Blake3] {c : Server} (h : c.Reachable)
    (hroom : 2 * c.threads.length < 2 ^ 128) :
    (∀ t ∈ c.threads, t.done.length ≤ 2 ∧ (t.done.length = 2 → ∃ a, t.prog = .ret a)) ∧
    ∃ c', c.Steps c' ∧ c'.Quiescent ∧ c'.requests = c.requests := by
  have hready := ready_reachable h hroom
  refine ⟨fun t ht => ?_, hready.finish⟩
  obtain ⟨hle, hmost⟩ := hready.paced t ht
  refine ⟨hle, fun htwo => ?_⟩
  rw [htwo] at hmost
  exact hmost.returned

theorem requests_complete_sample :
    letI := Sample.blake3
    letI := Sample.uuidCrate
    (∀ t ∈ Sample.server.threads, t.done.length ≤ 2 ∧
      (t.done.length = 2 → ∃ a, t.prog = .ret a)) ∧
    ∃ c', Sample.server.Steps c' ∧ c'.Quiescent ∧ c'.requests = Sample.server.requests :=
  letI := Sample.blake3
  letI := Sample.uuidCrate
  requests_complete Sample.server_reachable (by decide)

/-- **Every answer is explained**, also while other requests are running and as
    long as there are ids left for them: some serial run of all the requests
    that have arrived gives every answer that was given so far. -/
theorem answers_explained [UuidCrate] [Blake3] {c : Server} (h : c.Reachable)
    (hroom : 2 * c.threads.length < 2 ^ 128) :
    ∃ log s, Serial Api.handle StoreOp.Step AppState.default log s ∧
      (log.map Prod.fst).Perm c.requests ∧ c.answers.Subperm log := by
  obtain ⟨c', hsteps, hdone, hreqs⟩ := (ready_reachable h hroom).finish
  obtain ⟨log, rest, u, hordered⟩ := Ordered.steps appInv_default (h.trans hsteps)
  refine ⟨log ++ rest, c'.store, hordered.complete hdone, ?_, ?_⟩
  · rw [← hreqs, ← hdone.requests]
    exact (hordered.answers.map _).symm
  · exact (Pool.answers_steps hsteps).trans hordered.answers.subperm

theorem answers_explained_sample :
    letI := Sample.blake3
    letI := Sample.uuidCrate
    ∃ log s, Serial Api.handle StoreOp.Step AppState.default log s ∧
      (log.map Prod.fst).Perm Sample.server.requests ∧ Sample.server.answers.Subperm log :=
  letI := Sample.blake3
  letI := Sample.uuidCrate
  answers_explained Sample.server_reachable (by decide)

end Space
