import DebugAdapter.Packet.Reader

/-!
# Streams that grow

A stream may be read while it still arrives. What was read of it once would have been read as well
had more of it been there: `messages_of_item` and its companions say how one read divides all
messages of a stream, whatever it becomes later.
-/

namespace DebugAdapter.Packet

/-- The stream after more of it has arrived, and perhaps its end. Nothing comes behind the end. -/
def Reader.later (r : Reader) (more : List Arrival) (ended : Bool) : Reader :=
  if r.ended then r else { r with arrivals := r.arrivals ++ more, ended := ended }

theorem Reader.later_nil (r : Reader) : r.later [] false = r := by
  obtain ⟨buffer, arrivals, ended⟩ := r
  cases ended <;> simp [later]

theorem Reader.later_feed (r : Reader) (arrivals more : List Arrival) (ended : Bool) :
    (r.later arrivals false).later more ended = r.later (arrivals ++ more) ended := by
  obtain ⟨buffer, waiting, done⟩ := r
  cases done <;> simp [later]

theorem Reader.later_finish (r : Reader) (more : List Arrival) (ended : Bool) :
    r.finish.later more ended = r.later [] true := by
  obtain ⟨buffer, waiting, done⟩ := r
  cases done <;> simp [later, finish]

theorem Reader.finish_eq_later (r : Reader) : r.finish = r.later [] true := by
  obtain ⟨buffer, waiting, done⟩ := r
  cases done <;> simp [later, finish]

theorem Reader.exists_later (as bs : List Arrival) (ended ended' : Bool) :
    ∃ more e, ∀ r : Reader, (r.later as ended).later bs ended' = r.later more e := by
  cases ended with
  | false => exact ⟨as ++ bs, ended', fun r => r.later_feed as bs ended'⟩
  | true =>
    refine ⟨as, true, fun ⟨buffer, waiting, done⟩ => ?_⟩
    cases done <;> simp [later]

-- ---------------------------------------------------------------------------
-- One packet
-- ---------------------------------------------------------------------------

theorem ended_of_readFrom {ended : Bool} {buffer : Buffer} {arrivals : List Arrival}
    {found : Read Bytes} {after : Reader} (h : readFrom ended buffer arrivals = (found, after)) :
    after.ended = ended ∧ (found = .ended → ended = true) := by
  fun_induction readFrom ended buffer arrivals with
  | case1 => cases h; simp
  | case2 => cases h; simp
  | case3 =>
    cases h
    refine ⟨rfl, fun h => ?_⟩
    by_cases he : ended <;> simp_all
  | case4 => cases h; simp
  | case5 _ _ _ _ _ ih => exact ih h

theorem readFrom_later {buffer : Buffer} {arrivals : List Arrival} {found : Read Bytes}
    {after : Reader} (h : readFrom false buffer arrivals = (found, after)) (hb : found ≠ .blocked)
    (more : List Arrival) (ended : Bool) :
    readFrom ended buffer (arrivals ++ more) =
      (found, { after with arrivals := after.arrivals ++ more, ended := ended }) := by
  fun_induction readFrom false buffer arrivals with
  | case1 _ _ _ _ hn => cases h; rw [readFrom.eq_def, hn]
  | case2 _ _ _ _ hn => cases h; rw [readFrom.eq_def, hn]
  | case3 => cases h; exact absurd rfl hb
  | case4 _ _ _ _ hn => cases h; rw [readFrom.eq_def, hn]; rfl
  | case5 _ _ _ _ hn ih =>
    rw [readFrom.eq_def, hn]
    exact ih h

theorem Reader.readPacket_later {r after : Reader} {found : Read Bytes}
    (h : r.readPacket = (found, after)) (hb : found ≠ .blocked) (more : List Arrival)
    (ended : Bool) : (r.later more ended).readPacket = (found, after.later more ended) := by
  obtain ⟨he, -⟩ := ended_of_readFrom h
  obtain ⟨buffer, arrivals, done⟩ := r
  cases done with
  | true => simpa [later, he] using h
  | false => simpa [later, he, readPacket] using readFrom_later h hb more ended

-- ---------------------------------------------------------------------------
-- One message
-- ---------------------------------------------------------------------------

theorem Reader.readMessage_of_packet {r after : Reader} {body : Bytes} {j : Json}
    (hp : r.readPacket = (.item body, after)) (hj : Json.ofBytes? body = some j) :
    r.readMessage = (.item j, after) := by
  rw [readMessage, hp]
  simp only [hj]

theorem Reader.readMessage_later {r after : Reader} {found : Read Json}
    (h : r.readMessage = (found, after)) (hb : found ≠ .blocked) (more : List Arrival)
    (ended : Bool) : (r.later more ended).readMessage = (found, after.later more ended) := by
  fun_induction readMessage r with
  | case1 r body next hp j hj =>
    cases h
    rw [readMessage, readPacket_later hp nofun more ended]
    simp only [hj]
  | case2 r body next hp hj ih =>
    rw [readMessage, readPacket_later hp nofun more ended]
    simp only [hj]
    exact ih h
  | case3 r e next hp =>
    cases h
    rw [readMessage, readPacket_later hp nofun more ended]
  | case4 r text next hp =>
    cases h
    rw [readMessage, readPacket_later hp nofun more ended]
  | case5 r next hp =>
    cases h
    rw [readMessage, readPacket_later hp nofun more ended]
  | case6 => cases h; exact absurd rfl hb

theorem Reader.size_of_readMessage {r after : Reader} {j : Json}
    (h : r.readMessage = (.item j, after)) : after.size < r.size := by
  fun_induction readMessage r with
  | case1 r body next hp j' hj =>
    cases h
    exact size_of_readFrom_item hp
  | case2 r body next hp hj ih => exact Nat.lt_trans (ih h) (size_of_readFrom_item hp)
  | case3 | case4 | case5 | case6 => cases h

-- ---------------------------------------------------------------------------
-- All messages
-- ---------------------------------------------------------------------------

/-- The messages of a stream, up to its end or its first failure. -/
def Reader.messages (r : Reader) : List Json :=
  match _message : r.readMessage with
  | (.item j, after) => j :: after.messages
  | (.malformed _, _) | (.failed _, _) | (.ended, _) | (.blocked, _) => []
termination_by r.size
decreasing_by exact size_of_readMessage _message

theorem Reader.messages_of_item {r after : Reader} {j : Json}
    (h : r.readMessage = (.item j, after)) (more : List Arrival) (ended : Bool) :
    (r.later more ended).messages = j :: (after.later more ended).messages := by
  rw [messages.eq_def, readMessage_later h nofun]

theorem Reader.messages_of_end {r after : Reader} {found : Read Json}
    (h : r.readMessage = (found, after)) (hb : found ≠ .blocked) (hi : ∀ j, found ≠ .item j)
    (more : List Arrival) (ended : Bool) : (r.later more ended).messages = [] := by
  rw [messages.eq_def, readMessage_later h hb]
  cases found with
  | item j => exact absurd rfl (hi j)
  | malformed e => rfl
  | failed text => rfl
  | ended => rfl
  | blocked => exact absurd rfl hb

theorem Reader.messages_prefix (r : Reader) (more : List Arrival) (ended : Bool) :
    r.messages <+: (r.later more ended).messages := by
  fun_induction messages r with
  | case1 r j after h ih =>
    rw [messages_of_item h]
    exact (List.prefix_cons_inj j).2 ih
  | case2 | case3 | case4 | case5 => exact List.nil_prefix

def Reader.ending (r : Reader) : Read Json :=
  match _message : r.readMessage with
  | (.item _, after) => after.ending
  | (.malformed e, _) => .malformed e
  | (.failed text, _) => .failed text
  | (.ended, _) => .ended
  | (.blocked, _) => .blocked
termination_by r.size
decreasing_by exact size_of_readMessage _message

theorem Reader.ending_of_item {r after : Reader} {j : Json}
    (h : r.readMessage = (.item j, after)) (more : List Arrival) (ended : Bool) :
    (r.later more ended).ending = (after.later more ended).ending := by
  rw [ending.eq_def, readMessage_later h nofun]

theorem Reader.ending_of_end {r after : Reader} {found : Read Json}
    (h : r.readMessage = (found, after)) (hb : found ≠ .blocked) (hi : ∀ j, found ≠ .item j)
    (more : List Arrival) (ended : Bool) : (r.later more ended).ending = found := by
  rw [ending.eq_def, readMessage_later h hb]
  cases found with
  | item j => exact absurd rfl (hi j)
  | malformed e => rfl
  | failed text => rfl
  | ended => rfl
  | blocked => exact absurd rfl hb

theorem Reader.ending_of_blocked {r after : Reader} (h : r.readMessage = (.blocked, after)) :
    r.ending = .blocked := by
  rw [ending.eq_def, h]

theorem Reader.messages_of_blocked {r after : Reader} (h : r.readMessage = (.blocked, after)) :
    r.messages = [] := by
  rw [messages.eq_def, h]

end DebugAdapter.Packet
