import DebugAdapter.Protocol.Catalogue
import DebugAdapter.Proofs.Codec.Stable

/-!
# What was read is read again

The codec of every message type is stable, and the arguments that keep keys of their own give every
key back. The main statement is `reread`.
-/

namespace DebugAdapter.Protocol

open Codec

variable {w : Layout}

-- ---------------------------------------------------------------------------
-- Messages
-- ---------------------------------------------------------------------------

@[simp] theorem stable_messageKind : messageKind.Stable w :=
  stable_enumeration fun a => by cases a <;> rfl

@[simp] theorem stable_header : header.Stable w :=
  stable_record (by simp) (by simp) fun _ => rfl

@[simp] theorem stable_request : request.Stable w :=
  stable_record (by simp) (by simp) fun _ => rfl

@[simp] theorem stable_response : response.Stable w :=
  stable_record (by simp) (by simp) fun _ => rfl

@[simp] theorem stable_event : event.Stable w :=
  stable_record (by simp) (by simp) fun _ => rfl

-- ---------------------------------------------------------------------------
-- Breakpoints
-- ---------------------------------------------------------------------------

@[simp] theorem stable_source : source.Stable w :=
  stable_record (by simp) (by simp) fun _ => rfl

@[simp] theorem stable_sourceBreakpoint : sourceBreakpoint.Stable w :=
  stable_record (by simp) (by simp) fun _ => rfl

@[simp] theorem stable_functionBreakpoint : functionBreakpoint.Stable w :=
  stable_record (by simp) (by simp) fun _ => rfl

@[simp] theorem stable_breakpoint : breakpoint.Stable w :=
  stable_record (by simp) (by simp) fun _ => rfl

@[simp] theorem stable_setBreakpointsArguments : setBreakpointsArguments.Stable w :=
  stable_record (by simp) (by simp) fun _ => rfl

@[simp] theorem stable_breakpointsBody : breakpointsBody.Stable w :=
  stable_record (by simp) (by simp) fun _ => rfl

@[simp] theorem stable_setFunctionBreakpointsArguments : setFunctionBreakpointsArguments.Stable w :=
  stable_record (by simp) (by simp) fun _ => rfl

-- ---------------------------------------------------------------------------
-- Inspection
-- ---------------------------------------------------------------------------

@[simp] theorem stable_variablesFilter : variablesFilter.Stable w :=
  stable_enumeration fun a => by cases a <;> rfl

@[simp] theorem stable_stackTraceArguments : stackTraceArguments.Stable w :=
  stable_record (by simp) (by simp) fun _ => rfl

@[simp] theorem stable_stackFrame : stackFrame.Stable w :=
  stable_record (by simp) (by simp) fun _ => rfl

@[simp] theorem stable_stackTraceBody : stackTraceBody.Stable w :=
  stable_record (by simp) (by simp) fun _ => rfl

@[simp] theorem stable_scopesArguments : scopesArguments.Stable w :=
  stable_record (by simp) (by simp) fun _ => rfl

@[simp] theorem stable_scope : scope.Stable w :=
  stable_record (by simp) (by simp) fun _ => rfl

@[simp] theorem stable_scopesBody : scopesBody.Stable w :=
  stable_record (by simp) (by simp) fun _ => rfl

@[simp] theorem stable_variablesArguments : variablesArguments.Stable w :=
  stable_record (by simp) (by simp) fun _ => rfl

@[simp] theorem stable_variableHint : variableHint.Stable w :=
  stable_record (by simp) (by simp) fun _ => rfl

@[simp] theorem stable_variableRecord : variableRecord.Stable w :=
  stable_record (by simp) (by simp) fun _ => rfl

@[simp] theorem stable_variablesBody : variablesBody.Stable w :=
  stable_record (by simp) (by simp) fun _ => rfl

-- ---------------------------------------------------------------------------
-- Run control
-- ---------------------------------------------------------------------------

@[simp] theorem stable_stoppedBody : stoppedBody.Stable w :=
  stable_record (by simp) (by simp) fun _ => rfl

@[simp] theorem stable_threadArguments (name : String) : (threadArguments name).Stable w :=
  stable_record (by simp) (by simp) fun _ => rfl

@[simp] theorem stable_continueBody : continueBody.Stable w :=
  stable_record (by simp) (by simp) fun _ => rfl

@[simp] theorem stable_thread : thread.Stable w :=
  stable_record (by simp) (by simp) fun _ => rfl

@[simp] theorem stable_threadsBody : threadsBody.Stable w :=
  stable_record (by simp) (by simp) fun _ => rfl

-- ---------------------------------------------------------------------------
-- Lifecycle
-- ---------------------------------------------------------------------------

@[simp] theorem stable_capabilities : capabilities.Stable w :=
  stable_record (by simp) (by simp) fun _ => rfl

@[simp] theorem stable_initializeArguments : initializeArguments.Stable w :=
  stable_record (by simp) (by simp) fun _ => rfl

@[simp] theorem stable_disconnectArguments : disconnectArguments.Stable w :=
  stable_record (by simp) (by simp) fun _ => rfl

@[simp] theorem stable_debugLocation : debugLocation.Stable w :=
  stable_record (by simp) (by simp) fun _ => rfl

@[simp] theorem stable_handshakeResponse : handshakeResponse.Stable w :=
  stable_record (by simp) (by simp) fun _ => rfl

-- ---------------------------------------------------------------------------
-- Arguments with keys of their own
-- ---------------------------------------------------------------------------

@[simp] theorem stable_attachArguments : attachArguments.Stable w where
  again j m hj h := by
    cases j with
    | obj entries =>
      cases h
      exact congrArg attachArguments.decode hj.lay_eq
    | null | bool | int | float | str | arr => cases h
  null _ _ _ h := by cases h

/-- What is read from the arguments of a launch: the flag as far as it is set, and the entries of
the other keys. -/
theorem launchArguments_decode {j : Json} {m : LaunchArguments}
    (h : launchArguments.decode j = .ok m) :
    ∃ entries, j = .obj entries ∧ m.additional = entries.filter (·.1 != "noDebug") ∧
      (m.noDebug = none ∧ (entries.lookup "noDebug" = none ∨
          entries.lookup "noDebug" = some .null) ∨
        ∃ b, m.noDebug = some b ∧ entries.lookup "noDebug" = some (.bool b)) := by
  cases j with
  | obj entries =>
    refine ⟨entries, rfl, ?_⟩
    simp only [launchArguments] at h
    split at h
    · rename_i hlookup
      cases h
      refine ⟨(List.filter_eq_self.2 fun e he => ?_).symm, .inl ⟨rfl, .inl hlookup⟩⟩
      have := List.lookup_eq_none_iff.1 hlookup e he
      simpa [bne, BEq.comm] using this
    · rename_i i hlookup
      obtain ⟨b, hdecode, rfl⟩ := map_eq_ok.1 h
      refine ⟨rfl, ?_⟩
      cases i with
      | null =>
        cases hdecode
        exact .inl ⟨rfl, .inr hlookup⟩
      | bool b =>
        cases hdecode
        exact .inr ⟨b, rfl, hlookup⟩
      | int | float | str | arr | obj => cases hdecode
  | null | bool | int | float | str | arr => cases h

theorem launchArguments_decode_unset {entries : List (String × Json)}
    (h : entries.lookup "noDebug" = none) :
    launchArguments.decode (.obj entries) = .ok ⟨none, entries⟩ := by
  simp [launchArguments, h]

theorem launchArguments_decode_set {entries : List (String × Json)} {b : Bool}
    (h : entries.lookup "noDebug" = some (.bool b)) :
    launchArguments.decode (.obj entries) =
      .ok ⟨some b, entries.filter (·.1 != "noDebug")⟩ := by
  simp only [launchArguments, Field.name_optional, h]
  rfl

theorem lookup_filter_bne {α : Type} (entries : List (String × α)) (k key : String) :
    (entries.filter (·.1 != k)).lookup key = if key = k then none else entries.lookup key := by
  induction entries with
  | nil => simp
  | cons e entries ih => grind

@[simp] theorem stable_launchArguments : launchArguments.Stable w where
  again j m hj h := by
    obtain ⟨entries, rfl, hadditional, hflag⟩ := launchArguments_decode h
    obtain ⟨flag, additional⟩ := m
    cases hadditional
    have hkept := hj.filter (·.1 != "noDebug")
    obtain ⟨hunset, -⟩ | ⟨b, hset, -⟩ := hflag
    · cases hunset
      have hlookup := lookup_filter_bne entries "noDebug" "noDebug"
      have hlaid := hkept.lay_eq
      exact (congrArg launchArguments.decode hlaid).trans
        (launchArguments_decode_unset (hlookup.trans (if_pos rfl)))
    · cases hset
      have hothers : ∀ e ∈ entries.filter (·.1 != "noDebug"), e.1 ≠ "noDebug" :=
        fun e he => by simpa using (List.mem_filter.1 he).2
      obtain ⟨laid, hlaid, hlookup, hfilter⟩ := hkept.lay_cons (w.lay_bool b) hothers
      refine (congrArg launchArguments.decode hlaid).trans ?_
      rw [launchArguments_decode_set hlookup, hfilter]
  null _ _ _ h := by cases h

theorem launchArguments_get? {j : Json} {m : LaunchArguments} {key : String}
    (h : launchArguments.decode j = .ok m)
    (hnull : key = "noDebug" → j.get? key ≠ some .null) :
    (launchArguments.encode m).get? key = j.get? key := by
  obtain ⟨entries, rfl, hadditional, hflag⟩ := launchArguments_decode h
  obtain ⟨flag, additional⟩ := m
  cases hadditional
  have hothers := lookup_filter_bne entries "noDebug" key
  by_cases hkey : key = "noDebug"
  · subst hkey
    obtain ⟨hunset, hlookup | hlookup⟩ | ⟨b, hset, hlookup⟩ := hflag
    · cases hunset
      exact hothers.trans hlookup.symm
    · exact absurd hlookup (hnull rfl)
    · cases hset
      exact hlookup.symm
  · rw [if_neg hkey] at hothers
    refine Eq.trans ?_ hothers
    cases flag with
    | none => rfl
    | some b => simp [launchArguments, Json.get?, List.lookup_cons, beq_false_of_ne hkey]

theorem launchArguments_get?_null {j : Json} {m : LaunchArguments}
    (h : launchArguments.decode j = .ok m) (hnull : j.get? "noDebug" = some .null) :
    (launchArguments.encode m).get? "noDebug" = none := by
  obtain ⟨entries, rfl, hadditional, hflag⟩ := launchArguments_decode h
  obtain ⟨flag, additional⟩ := m
  cases hadditional
  obtain ⟨hunset, -⟩ | ⟨b, -, hlookup⟩ := hflag
  · cases hunset
    exact lookup_filter_bne entries "noDebug" "noDebug"
  · cases hlookup.symm.trans hnull

theorem attachArguments_encode {j : Json} {m : AttachArguments}
    (h : attachArguments.decode j = .ok m) : attachArguments.encode m = j := by
  cases j with
  | obj entries =>
    cases h
    rfl
  | null | bool | int | float | str | arr => cases h

-- ---------------------------------------------------------------------------
-- The catalogue
-- ---------------------------------------------------------------------------

theorem stable_catalogue : ∀ entry ∈ catalogue, entry.2.codec.Stable w := by
  simp [catalogue, Listed.plain, Listed.blankable]

/-- Every type of the protocol reads again what it has read, from the form it writes, be the keys
in declaration order or, where the value came from the wire, in the order of the wire. Arguments
with keys of their own give every key back, but for a `noDebug` of null. -/
theorem reread :
    (∀ entry ∈ catalogue, ∀ j v, entry.2.codec.decode j = .ok v →
      entry.2.codec.decode (entry.2.codec.encode v) = .ok v ∧
      (j.Tidy → entry.2.codec.decode (entry.2.codec.encode v).ordered = .ok v)) ∧
    (∀ j m, launchArguments.decode j = .ok m →
      (∀ key, (key = "noDebug" → j.get? key ≠ some .null) →
        (launchArguments.encode m).get? key = j.get? key) ∧
      (j.get? "noDebug" = some .null → (launchArguments.encode m).get? "noDebug" = none)) ∧
    (∀ j m, attachArguments.decode j = .ok m → attachArguments.encode m = j) ∧
    ∀ body j, Json.ofBytes? body = some j → j.Tidy := by
  refine ⟨fun entry hentry j v h => ⟨?declared, fun hj => ?ordered⟩,
    fun j m h => ⟨fun key => launchArguments_get? h, launchArguments_get?_null h⟩,
    fun j m h => attachArguments_encode h, fun body j h => Json.tidy_of_ofBytes? h⟩
  case declared => exact (stable_catalogue (w := .declared) entry hentry).again j v trivial h
  case ordered => exact (stable_catalogue (w := .ordered) entry hentry).again j v hj h

/-- A response with its number under the other key, its type in the long form, a null and a key that
no field has; and a launch with a key of its own and a null. -/
theorem reread_unusual :
    (let j := Json.obj
      [("body", .null), ("command", .str "threads"), ("extra", .int 1), ("requestSeq", .int 9),
        ("seq", .int 4), ("success", .bool true), ("type", .obj [("response", .null)])]
     let m : Response := ⟨4, .response, 9, true, "threads", none, none⟩
     response.decode j = .ok m ∧ response.decode (response.encode m) = .ok m ∧
      response.decode (response.encode m).ordered = .ok m) ∧
    (let j := Json.obj [("noDebug", .null), ("program", .str "main.lua")]
     let m : LaunchArguments := ⟨none, [("program", .str "main.lua")]⟩
     launchArguments.decode j = .ok m ∧
      (launchArguments.encode m).get? "program" = j.get? "program" ∧
      (launchArguments.encode m).get? "noDebug" = none) := by
  obtain ⟨hcatalogue, hlaunch, -⟩ := reread
  constructor
  case left =>
    intro j m
    have hread : response.decode j = .ok m := rfl
    have hlisted : ("Response", Listed.plain response) ∈ catalogue := by simp [catalogue]
    obtain ⟨hdeclared, hordered⟩ := hcatalogue _ hlisted j m hread
    have htidy : j.Tidy := .obj (by decide) (by simp [Json.Ascending])
    exact ⟨hread, hdeclared, hordered htidy⟩
  case right =>
    intro j m
    have hread : launchArguments.decode j = .ok m := rfl
    obtain ⟨hkeys, hnull⟩ := hlaunch j m hread
    exact ⟨hread, hkeys "program" (by simp), hnull rfl⟩

end DebugAdapter.Protocol
