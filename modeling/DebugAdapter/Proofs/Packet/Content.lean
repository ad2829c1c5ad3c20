import DebugAdapter.Proofs.Packet.Chunks
import DebugAdapter.Proofs.Packet.Stream

/-!
# The content of a stream

What is read of a stream depends on its bytes up to the first failure and on what stands behind
them. It makes no difference how the bytes were cut into chunks, nor how many of them are in the
buffer already: `messages_of_content` and `ending_of_content` say so of whole streams.
-/

namespace DebugAdapter.Packet

structure Frame where
  bytes : Bytes
  body : Bytes
  next : Buffer.next ⟨bytes⟩ = (.ok (some body), {})

def textBytes (text : String) : Bytes :=
  ("Content-Length: " ++ toString text.utf8ByteSize ++ "\r\n\r\n" ++ text).toUTF8.toList

def Frame.ofText (text : String)
    (next : Buffer.next ⟨textBytes text⟩ = (.ok (some text.toUTF8.toList), {})) : Frame :=
  ⟨textBytes text, text.toUTF8.toList, next⟩

/-- What stands behind the bytes of a stream. -/
inductive Limit where
  | failure (text : String)
  | done
  | pending
deriving DecidableEq, Repr

/-- What is read where the bytes do not suffice. -/
def Limit.read {α : Type} : Limit → Read α
  | .failure text => .failed text
  | .done => .ended
  | .pending => .blocked

structure Content where
  bytes : Bytes
  limit : Limit
deriving DecidableEq, Repr

namespace Content

def behind (front : Bytes) (c : Content) : Content := { c with bytes := front ++ c.bytes }

/-- Nothing that arrives behind a failure counts. -/
def ofArrivals (ended : Bool) : List Arrival → Content
  | [] => ⟨[], if ended then .done else .pending⟩
  | .chunk bytes :: rest => (ofArrivals ended rest).behind bytes
  | .failure text :: _ => ⟨[], .failure text⟩

theorem behind_behind (as bs : Bytes) (c : Content) :
    (c.behind bs).behind as = c.behind (as ++ bs) := by
  simp [behind]

theorem ofArrivals_append {as : List Arrival} (h : (ofArrivals false as).limit = .pending)
    (more : List Arrival) (ended : Bool) :
    ofArrivals ended (as ++ more) = (ofArrivals ended more).behind (ofArrivals false as).bytes := by
  induction as with
  | nil => rfl
  | cons a as ih =>
    cases a with
    | failure text => cases h
    | chunk bytes => rw [List.cons_append, ofArrivals, ih h, behind_behind]; rfl

def readPacket (c : Content) : Read Bytes × Content :=
  match Buffer.next ⟨c.bytes⟩ with
  | (.ok (some body), after) => (.item body, ⟨after.bytes, c.limit⟩)
  | (.error e, after) => (.malformed e, ⟨after.bytes, c.limit⟩)
  | (.ok none, _) => (c.limit.read, c)

theorem readPacket_behind (frame : Frame) (c : Content) :
    (c.behind frame.bytes).readPacket = (.item frame.body, c) := by
  have := Buffer.next_extend frame.next nofun c.bytes
  simp only [Buffer.extend] at this
  simp [readPacket, behind, this]

theorem readPacket_eq_blocked {c : Content} (h : c.readPacket.1 = .blocked) :
    c.limit = .pending ∧ c.readPacket.2 = c := by
  unfold readPacket at h ⊢
  split at h
  · cases h
  · cases h
  · cases hl : c.limit with
    | pending => simp_all
    | failure text =>
      rw [hl] at h
      cases h
    | done =>
      rw [hl] at h
      cases h

end Content

namespace Reader

def content (r : Reader) : Content := (Content.ofArrivals r.ended r.arrivals).behind r.buffer.bytes

theorem content_later {r : Reader} (h : r.content.limit = .pending) (more : List Arrival)
    (ended : Bool) :
    (r.later more ended).content = (Content.ofArrivals ended more).behind r.content.bytes := by
  obtain ⟨⟨bytes⟩, arrivals, done⟩ := r
  have still : done = false := by
    cases done with
    | false => rfl
    | true =>
      exfalso
      clear ended more
      change (Content.ofArrivals true arrivals).limit = .pending at h
      induction arrivals with
      | nil => cases h
      | cons a arrivals ih =>
        cases a with
        | failure text => cases h
        | chunk bytes => exact ih h
  subst still
  simp only [content, later, Bool.false_eq_true, if_false]
  rw [Content.ofArrivals_append h, Content.behind_behind]
  rfl

-- ---------------------------------------------------------------------------
-- One read
-- ---------------------------------------------------------------------------

/-- A read shows in the content. Only a failure uncovers what stands behind it. -/
theorem readPacket_content {r after : Reader} {found : Read Bytes}
    (h : r.readPacket = (found, after)) :
    found = r.content.readPacket.1 ∧
      ((∀ text, found ≠ .failed text) → after.content = r.content.readPacket.2) := by
  obtain ⟨buffer, arrivals, ended⟩ := r
  simp only [readPacket] at h
  simp only [content]
  fun_induction readFrom ended buffer arrivals with
  | case1 buffer body next arrivals hn =>
    cases h
    have := Buffer.next_extend hn (by simp) (Content.ofArrivals ended arrivals).bytes
    simp only [Buffer.extend] at this
    simp [Content.readPacket, Content.behind, this]
  | case2 buffer e next arrivals hn =>
    cases h
    have := Buffer.next_extend hn (by simp) (Content.ofArrivals ended arrivals).bytes
    simp only [Buffer.extend] at this
    simp [Content.readPacket, Content.behind, this]
  | case3 buffer next hn =>
    cases h
    cases ended <;>
      simp [Content.readPacket, Content.behind, Content.ofArrivals, hn, Limit.read]
  | case4 buffer next text rest hn =>
    cases h
    simp [Content.readPacket, Content.behind, Content.ofArrivals, hn, Limit.read]
  | case5 buffer next bytes rest hn ih =>
    rw [Content.ofArrivals, Content.behind_behind]
    exact ih h

theorem exists_readPacket {r : Reader} {frame : Frame} {c : Content}
    (h : r.content = c.behind frame.bytes) :
    ∃ after, r.readPacket = (.item frame.body, after) ∧ after.content = c := by
  obtain ⟨found, after, hread⟩ : ∃ found after, r.readPacket = (found, after) := ⟨_, _, rfl⟩
  obtain ⟨hfound, hafter⟩ := readPacket_content hread
  rw [h, Content.readPacket_behind] at hfound hafter
  subst hfound
  exact ⟨after, hread, hafter nofun⟩

theorem content_of_blocked {r after : Reader} (h : r.readPacket = (.blocked, after)) :
    r.content.limit = .pending ∧ after.content = r.content := by
  obtain ⟨hfound, hafter⟩ := readPacket_content h
  obtain ⟨hlimit, hsame⟩ := Content.readPacket_eq_blocked hfound.symm
  exact ⟨hlimit, (hafter nofun).trans hsame⟩

theorem readPacket_of_content {r r' after : Reader} (hc : r.content = r'.content)
    {found : Read Bytes} (h : r.readPacket = (found, after)) :
    ∃ after', r'.readPacket = (found, after') ∧
      ((∀ text, found ≠ .failed text) → after.content = after'.content) := by
  obtain ⟨found', after', h'⟩ : ∃ found' after', r'.readPacket = (found', after') := ⟨_, _, rfl⟩
  obtain ⟨hf, ha⟩ := readPacket_content h
  obtain ⟨hf', ha'⟩ := readPacket_content h'
  obtain rfl : found' = found := by rw [hf, hf', hc]
  exact ⟨after', h', fun open' => by rw [ha open', ha' open', hc]⟩

theorem readMessage_of_content {r r' after : Reader} (hc : r.content = r'.content)
    {found : Read Json} (h : r.readMessage = (found, after)) :
    ∃ after', r'.readMessage = (found, after') ∧
      ∀ j, found = .item j → after.content = after'.content := by
  fun_induction readMessage r generalizing r' with
  | case1 r body next hp j hj =>
    cases h
    obtain ⟨next', hp', hn⟩ := readPacket_of_content hc hp
    exact ⟨next', readMessage_of_packet hp' hj, fun _ _ => hn (by simp)⟩
  | case2 r body next hp hj ih =>
    obtain ⟨next', hp', hn⟩ := readPacket_of_content hc hp
    obtain ⟨after', h', ha⟩ := ih (hn (by simp)) h
    refine ⟨after', ?_, ha⟩
    rw [readMessage, hp']
    simp only [hj]
    exact h'
  | case3 r e next hp | case4 r text next hp | case5 r next hp | case6 r next hp =>
    cases h
    obtain ⟨next', hp', -⟩ := readPacket_of_content hc hp
    exact ⟨next', by rw [readMessage, hp'], by simp⟩

-- ---------------------------------------------------------------------------
-- All reads
-- ---------------------------------------------------------------------------

theorem messages_of_content {r r' : Reader} (hc : r.content = r'.content) :
    r.messages = r'.messages := by
  fun_induction messages r generalizing r' with
  | case1 r j after h ih =>
    obtain ⟨after', h', ha⟩ := readMessage_of_content hc h
    rw [messages.eq_def r', h', ih (ha j rfl)]
  | case2 r e after h | case3 r text after h | case4 r after h | case5 r after h =>
    obtain ⟨after', h', -⟩ := readMessage_of_content hc h
    rw [messages.eq_def, h']

theorem ending_of_content {r r' : Reader} (hc : r.content = r'.content) :
    r.ending = r'.ending := by
  fun_induction ending r generalizing r' with
  | case1 r j after h ih =>
    obtain ⟨after', h', ha⟩ := readMessage_of_content hc h
    rw [ending.eq_def r', h', ih (ha j rfl)]
  | case2 r e after h | case3 r text after h | case4 r after h | case5 r after h =>
    obtain ⟨after', h', -⟩ := readMessage_of_content hc h
    rw [ending.eq_def, h']

end Reader

end DebugAdapter.Packet
