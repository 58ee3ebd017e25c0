/-
How the compositor frames the requests of a client.

`handle_client` receives chunks of the stream, cuts the complete messages off the front of what it
has and keeps the rest for the next chunk.  A chunk that completes no message makes
`recv_wayland_message` return `None`, which `handle_client` takes for the end of the connection.
-/
import Twilight.Lib.Bytes
import Mathlib.Data.List.Basic

namespace Twilight.Wayland

open List Bytes

structure WaylandHeader where
  objectId : Nat
  opcode : Nat
  size : Nat
deriving DecidableEq

structure ReceivedMessage where
  header : WaylandHeader
  payload : List UInt8
deriving DecidableEq

def parseHeader (b : List UInt8) : WaylandHeader :=
  let packed := (Bytes.ofList b).readLE 4 4
  ⟨(Bytes.ofList b).readLE 0 4, packed % 2 ^ 16, packed / 2 ^ 16⟩

/-- The complete messages and the bytes behind them; `none` is an invalid size. -/
def parseChunk (b : List UInt8) : Option (List ReceivedMessage × List UInt8) :=
  if b.length < 8 then some ([], b)
  else if (parseHeader b).size < 8 then none
  else if b.length < (parseHeader b).size then some ([], b)
  else (parseChunk (b.drop (parseHeader b).size)).map fun r =>
    (⟨parseHeader b, (b.take (parseHeader b).size).drop 8⟩ :: r.1, r.2)
termination_by b.length
decreasing_by
  rw [length_drop]
  omega

inductive End
  | eof
  | disconnect
  | error
deriving DecidableEq

/-- A byte of the stream with the descriptors that are sent with it. -/
abbrev Item (F : Type) := UInt8 × List F

section Client

variable {F : Type} (need : ReceivedMessage → Nat)

/-- `dispatch_request` for the messages of the queue: a handler takes as many descriptors from the
front as its request has. -/
def serve : List ReceivedMessage → List F → List (ReceivedMessage × List F) × List F
  | [], fds => ([], fds)
  | m :: queue, fds =>
    let r := serve queue (fds.drop (need m))
    ((m, fds.take (need m)) :: r.1, r.2)

/-- `handle_client` with the bytes and the descriptors left over, for the chunks up to the end of
the file: the requests it dispatches, and how it ends.  It comes back to the socket when the queue
is empty.  A chunk without bytes stands for `WouldBlock`. -/
def handleClient (residual : List UInt8) (pendingFds : List F) :
    List (List (Item F)) → List (ReceivedMessage × List F) × End
  | [] => ([], .eof)
  | [] :: chunks => handleClient residual pendingFds chunks
  | items :: chunks =>
    match parseChunk (residual ++ items.map (·.1)) with
    | none => ([], .error)
    | some ([], _) => ([], .disconnect)
    | some (queue, rest) =>
      let (handled, fds) := serve need queue (pendingFds ++ items.flatMap (·.2))
      let (later, last) := handleClient rest fds chunks
      (handled ++ later, last)

end Client

/-! ## Well-formed streams -/

/-- A request as a client sends it. -/
structure Request (F : Type) where
  objectId : UInt32
  opcode : UInt16
  payload : List UInt8
  short : payload.length + 8 < 2 ^ 16
  /-- The bytes with the descriptors sent along with them. -/
  items : List (Item F)
  bytes : items.map (·.1) = (Bytes.le objectId.toNat).slice 0 4 ++
    ((Bytes.le ((payload.length + 8) * 2 ^ 16 + opcode.toNat)).slice 0 4 ++ payload)

namespace Request

variable {F : Type} (r : Request F)

def message : ReceivedMessage := ⟨⟨r.objectId.toNat, r.opcode.toNat, r.payload.length + 8⟩, r.payload⟩

def fds : List F := r.items.flatMap (·.2)

lemma length_items : r.items.length = r.payload.length + 8 := by
  have h := congrArg List.length r.bytes
  rw [length_map, length_append, length_append, length_slice, length_slice] at h
  omega

lemma take_bytes {n : Nat} (hn : 8 ≤ n) (rest : List UInt8) :
    ∃ tail, (r.items.map (·.1) ++ rest).take n = (Bytes.le r.objectId.toNat).slice 0 4 ++
      ((Bytes.le ((r.payload.length + 8) * 2 ^ 16 + r.opcode.toNat)).slice 0 4 ++ tail) := by
  refine ⟨(r.payload ++ rest).take (n - 8), ?_⟩
  rw [r.bytes, append_assoc, append_assoc, take_append, take_append,
    take_of_length_le (by simpa using by omega), take_of_length_le (by simpa using by omega),
    length_slice, length_slice, Nat.sub_sub]

lemma parseHeader_take {n : Nat} (hn : 8 ≤ n) (rest : List UInt8) :
    parseHeader ((r.items.map (·.1) ++ rest).take n) = r.message.header := by
  obtain ⟨tail, htail⟩ := r.take_bytes hn rest
  have hid := r.objectId.toNat_lt
  have hop := r.opcode.toNat_lt
  have hshort := r.short
  have hfirst := readLE_ofList [] ((Bytes.le ((r.payload.length + 8) * 2 ^ 16 +
    r.opcode.toNat)).slice 0 4 ++ tail) r.objectId.toNat 4
  have hsecond := readLE_ofList ((Bytes.le r.objectId.toNat).slice 0 4) tail
    ((r.payload.length + 8) * 2 ^ 16 + r.opcode.toNat) 4
  rw [nil_append, length_nil, Nat.mod_eq_of_lt (by omega)] at hfirst
  rw [length_slice, Nat.mod_eq_of_lt (by omega)] at hsecond
  rw [htail, parseHeader, hfirst, hsecond, message, WaylandHeader.mk.injEq]
  omega

lemma parseChunk_items (rest : List UInt8) : parseChunk (r.items.map (·.1) ++ rest) =
    (parseChunk rest).map fun q => (r.message :: q.1, q.2) := by
  have hlength := r.length_items
  have hheader := r.parseHeader_take (n := (r.items.map (·.1) ++ rest).length) (by simp; omega) rest
  have hsize : r.message.header.size = (r.items.map (·.1)).length := by
    rw [length_map, hlength]
    rfl
  rw [take_length] at hheader
  rw [parseChunk, hheader, hsize, if_neg (by simp; omega), if_neg (by simp; omega),
    if_neg (by simp), drop_left, take_left, r.bytes]
  rfl

lemma parseChunk_short {n : Nat} (hn : n < r.items.length) (rest : List UInt8) :
    parseChunk ((r.items.map (·.1) ++ rest).take n) =
      some ([], (r.items.map (·.1) ++ rest).take n) := by
  have hlength := r.length_items
  have htake : ((r.items.map (·.1) ++ rest).take n).length = n := by
    simp
    omega
  rw [parseChunk, htake]
  split
  · rfl
  · rw [r.parseHeader_take (by omega), if_neg (by simp [message]), if_pos]
    rw [message, ← hlength]
    exact hn

end Request

section Stream

variable {F : Type} (rs : List (Request F))

def stream : List (Item F) := rs.flatMap (·.items)

def requests : List (ReceivedMessage × List F) := rs.map fun r => (r.message, r.fds)

/-- A request of the stream ends behind position `n` and not behind `m`. -/
def EndsIn (n m : Nat) : Prop :=
  ∃ done rest, rs = done ++ rest ∧ n < (stream done).length ∧ (stream done).length ≤ m

/-- Every chunk that has bytes has the last byte of a request; the first one begins at `n`. -/
def EachEnds (rs : List (Request F)) : Nat → List (List (Item F)) → Prop
  | _, [] => True
  | n, chunk :: chunks =>
    (chunk ≠ [] → EndsIn rs n (n + chunk.length)) ∧ EachEnds rs (n + chunk.length) chunks

/-- The first `n` items of a stream: whole requests, and the beginning of the next. -/
lemma parseChunk_stream (n : Nat) :
    ∃ done rest, rs = done ++ rest ∧ (stream done).length ≤ n ∧
      (∀ r ∈ rest.head?, n < (stream done).length + r.items.length) ∧
      parseChunk (((stream rs).take n).map (·.1)) = some (done.map (·.message),
        ((stream rest).take (n - (stream done).length)).map (·.1)) := by
  induction rs generalizing n with
  | nil =>
    refine ⟨[], [], rfl, Nat.zero_le n, nofun, ?_⟩
    rw [stream, flatMap_nil, take_nil, take_nil, map_nil, parseChunk, if_pos (by decide), map_nil]
  | cons r rs ih =>
    have hstream : stream (r :: rs) = r.items ++ stream rs := rfl
    by_cases hn : n < r.items.length
    · refine ⟨[], r :: rs, rfl, Nat.zero_le n, fun q hq => ?_, ?_⟩
      · cases hq
        simpa [stream] using hn
      · rw [hstream, map_take, map_append, r.parseChunk_short hn, map_take, map_append]
        rfl
    · obtain ⟨done, rest, rfl, hle, hnext, hparse⟩ := ih (n - r.items.length)
      have hlength : (stream (r :: done)).length = r.items.length + (stream done).length :=
        length_append
      refine ⟨r :: done, rest, rfl, by omega, fun q hq => ?_, ?_⟩
      · have := hnext q hq
        omega
      · rw [hstream, take_append, take_of_length_le (by omega), map_append,
          r.parseChunk_items, hparse, hlength, Nat.sub_sub]
        rfl

lemma serve_requests (need : ReceivedMessage → Nat) (done : List (Request F))
    (hneed : ∀ r ∈ done, need r.message = r.fds.length) (fds : List F) :
    serve need (done.map (·.message)) ((stream done).flatMap (·.2) ++ fds) =
      (requests done, fds) := by
  induction done with
  | nil => rfl
  | cons r done ih =>
    have hfds : (stream (r :: done)).flatMap (·.2) = r.fds ++ (stream done).flatMap (·.2) := by
      rw [stream, flatMap_cons, flatMap_append]
      rfl
    rw [hfds, append_assoc, map_cons, serve, hneed r mem_cons_self, drop_left,
      take_left, ih fun q hq => hneed q (mem_cons_of_mem _ hq)]
    rfl

lemma stream_append (done rest : List (Request F)) :
    stream (done ++ rest) = stream done ++ stream rest := flatMap_append

lemma endsIn_append {done rest : List (Request F)} {n m : Nat} :
    EndsIn (done ++ rest) ((stream done).length + n) ((stream done).length + m) ↔
      EndsIn rest n m := by
  constructor
  · rintro ⟨done', rest', heq, hlt, hle⟩
    rcases append_eq_append_iff.mp heq with ⟨more, rfl, hrest⟩ | ⟨more, rfl, -⟩
    · rw [stream_append, length_append] at hlt hle
      exact ⟨more, rest', hrest, by omega, by omega⟩
    · rw [stream_append, length_append] at hlt
      omega
  · rintro ⟨done', rest', rfl, hlt, hle⟩
    refine ⟨done ++ done', rest', (append_assoc ..).symm, ?_, ?_⟩
    · rw [stream_append, length_append]
      omega
    · rw [stream_append, length_append]
      omega

lemma eachEnds_append (done : List (Request F)) {rest : List (Request F)}
    (chunks : List (List (Item F))) (n : Nat) :
    EachEnds (done ++ rest) ((stream done).length + n) chunks ↔ EachEnds rest n chunks := by
  induction chunks generalizing n with
  | nil => exact Iff.rfl
  | cons chunk chunks ih => rw [EachEnds, EachEnds, Nat.add_assoc, endsIn_append, ih]

/-- The requests are dispatched from the `n` items on that have been received of the next one. -/
lemma handleClient_iff {need : ReceivedMessage → Nat} {chunks : List (List (Item F))}
    {rs : List (Request F)} {n : Nat} (hneed : ∀ r ∈ rs, need r.message = r.fds.length)
    (hn : ∀ r ∈ rs.head?, n < r.items.length) (hchunks : (stream rs).drop n = chunks.flatten) :
    handleClient need (((stream rs).take n).map (·.1)) (((stream rs).take n).flatMap (·.2)) chunks =
        (requests rs, .eof) ↔ EachEnds rs n chunks := by
  induction chunks generalizing rs n with
  | nil =>
    refine iff_of_true ?_ trivial
    cases rs with
    | nil => rfl
    | cons r rs =>
      have hlt := hn r rfl
      have := congrArg List.length hchunks
      rw [length_drop, stream, flatMap_cons, length_append, flatten_nil, length_nil] at this
      omega
  | cons chunk chunks ih =>
    cases chunk with
    | nil =>
      rw [handleClient, ih hneed hn hchunks, EachEnds]
      exact (and_iff_right fun hne => absurd rfl hne).symm
    | cons item items =>
      rw [flatten_cons] at hchunks
      have htake : (stream rs).take (n + (item :: items).length) =
          (stream rs).take n ++ item :: items := by
        rw [take_add, hchunks, take_left]
      have hdrop : (stream rs).drop (n + (item :: items).length) = chunks.flatten := by
        rw [← drop_drop, hchunks, drop_left]
      obtain ⟨done, rest, rfl, hle, hnext, hparse⟩ :=
        parseChunk_stream rs (n + (item :: items).length)
      rw [htake, map_append] at hparse
      rw [handleClient.eq_3 _ _ _ _ _ (cons_ne_nil item items), hparse, EachEnds]
      cases done with
      | nil =>
        refine iff_of_false (fun h => nomatch (Prod.mk.inj h).2) fun h => ?_
        obtain ⟨done, more, heq, hlt, hle⟩ := h.1 (cons_ne_nil _ _)
        cases done with
        | nil => exact absurd hlt (Nat.not_lt_zero n)
        | cons r done =>
          have hr := hnext r (by rw [← nil_append rest, heq]; rfl)
          rw [stream, flatMap_cons, length_append] at hle
          rw [stream, flatMap_nil, length_nil] at hr
          omega
      | cons r done =>
        have hlt : n < (stream (r :: done)).length := by
          rw [stream, flatMap_cons, length_append]
          exact Nat.lt_add_right _ (hn r rfl)
        have hfds : ((stream (r :: done ++ rest)).take n).flatMap (·.2) ++
            (item :: items).flatMap (·.2) = (stream (r :: done)).flatMap (·.2) ++ ((stream rest).take
              (n + (item :: items).length - (stream (r :: done)).length)).flatMap (·.2) := by
          rw [← flatMap_append, ← htake, stream_append, take_append,
            take_of_length_le hle, flatMap_append]
        have hserve := serve_requests need (r :: done)
          (fun q hq => hneed q (mem_append_left _ hq))
          (((stream rest).take (n + (item :: items).length -
            (stream (r :: done)).length)).flatMap (·.2))
        have hrest := @ih rest (n + (item :: items).length - (stream (r :: done)).length)
          (fun q hq => hneed q (mem_append_right _ hq)) (fun q hq => ?_) ?_
        · rw [← eachEnds_append (r :: done), Nat.add_sub_of_le hle] at hrest
          have hends : EndsIn (r :: done ++ rest) n (n + (item :: items).length) :=
            ⟨r :: done, rest, rfl, hlt, hle⟩
          rw [← hrest, hfds]
          simp only [map_cons] at hserve ⊢
          rw [hserve]
          simp only [requests, map_append, Prod.ext_iff, append_cancel_left_eq]
          exact ⟨fun h => ⟨fun _ => hends, h⟩, fun h => h.2⟩
        · have := hnext q hq
          omega
        · rw [← hdrop, stream_append, drop_append, drop_of_length_le hle, nil_append]

/-- A client's requests are dispatched with their descriptors, and the connection stays open until
the end of the file, exactly if every chunk has the last byte of a request. -/
theorem dispatches_iff_eachEnds (need : ReceivedMessage → Nat) (rs : List (Request F))
    (chunks : List (List (Item F))) (hneed : ∀ r ∈ rs, need r.message = r.fds.length)
    (hchunks : chunks.flatten = stream rs) :
    handleClient need [] [] chunks = (requests rs, .eof) ↔ EachEnds rs 0 chunks := by
  refine handleClient_iff (n := 0) hneed (fun r hr => ?_) hchunks.symm
  rw [r.length_items]
  exact Nat.succ_pos _

end Stream

def sync : Request Nat where
  objectId := 1
  opcode := 0
  payload := [2, 0, 0, 0]
  short := by decide
  items := [1, 0, 0, 0, 0, 0, 12, 0, 2, 0, 0, 0].map fun b => (b, [])
  bytes := by decide

/-- `wl_shm.create_pool` of 4096 bytes, with its descriptor. -/
def createPool : Request Nat where
  objectId := 4
  opcode := 0
  payload := [5, 0, 0, 0, 0, 16, 0, 0]
  short := by decide
  items := (4, [7]) :: [0, 0, 0, 0, 0, 16, 0, 5, 0, 0, 0, 0, 16, 0, 0].map fun b => (b, [])
  bytes := by decide

/-- Three requests in three chunks, none of which ends with a request but the last. -/
theorem dispatches_three :
    let chunks := [sync.items ++ createPool.items.take 10,
      createPool.items.drop 10 ++ sync.items.take 3, sync.items.drop 3]
    let need := fun m : ReceivedMessage => if m.header.objectId = 4 then 1 else 0
    handleClient need [] [] chunks = (requests [sync, createPool, sync], .eof) := by
  intro chunks need
  refine (dispatches_iff_eachEnds need [sync, createPool, sync] chunks (by simp; decide) rfl).mpr
    ⟨fun _ => ⟨[sync], _, rfl, ?_, ?_⟩, fun _ => ⟨[sync, createPool], _, rfl, ?_, ?_⟩,
      fun _ => ⟨[sync, createPool, sync], [], rfl, ?_, ?_⟩, trivial⟩
  all_goals decide

/-- The header comes first: the client is taken to have left. -/
theorem header_disconnects :
    handleClient (fun _ => 0) [] [] [sync.items.take 8, sync.items.drop 8] = ([], .disconnect) ∧
      [sync.items.take 8, sync.items.drop 8].flatten = stream [sync] := by
  have hparse := sync.parseChunk_short (n := 8) (by decide) []
  rw [append_nil, ← map_take] at hparse
  refine ⟨?_, rfl⟩
  have hsome : sync.items.take 8 = [] → False := by decide
  rw [handleClient.eq_3 _ _ _ _ _ hsome, nil_append, hparse]

end Twilight.Wayland
