import ShishiTodo.Push.Recipients

/-!
# Endpoints stay with their accounts

`UNIQUE (endpoint)` and the `WHERE` of the upsert together: an endpoint has one subscription, and as long as its account does not unsubscribe it, no run of the server gives it to another account. Whoever else asks for it is refused.
-/

namespace ShishiTodo.Push

open Lib

/-- No two rows have one endpoint. -/
def Tables.UniqueEndpoints (tables : Tables) : Prop :=
  ∀ first second firstRow secondRow, tables.pushSubscriptions.lookup first = some firstRow →
    tables.pushSubscriptions.lookup second = some secondRow → firstRow.endpoint = secondRow.endpoint →
    first = second

/-- The account has the endpoint. -/
def Tables.Owns (tables : Tables) (userId : Uuid) (endpoint : String) : Prop :=
  ∃ id row, tables.pushSubscriptions.lookup id = some row ∧ row.userId = userId ∧ row.endpoint = endpoint

/-- The account does not unsubscribe. -/
def Event.Keeps (userId : Uuid) : Event → Prop
  | .unsubscribe auth _ => auth.userId ≠ userId
  | _ => True

section

variable {tables next : Tables} {userId : Uuid} {endpoint : String}

theorem Tables.Resubscribed.unique (h : tables.Resubscribed next) (hunique : tables.UniqueEndpoints) :
    next.UniqueEndpoints := by
  intro first second firstRow secondRow hfirst hsecond hsame
  cases h with
  | same hrows =>
      rw [hrows] at hfirst hsecond
      exact hunique first second firstRow secondRow hfirst hsecond hsame
  | written id row change hrow hnext haddress =>
      -- Under every identifier there was a row with the endpoint of the one that is there now.
      have hold : ∀ other found, next.pushSubscriptions.lookup other = some found →
          ∃ kept, tables.pushSubscriptions.lookup other = some kept ∧ kept.endpoint = found.endpoint := by
        intro other found hfound
        rw [hnext, Table.lookup_insert_eq_ite] at hfound
        split at hfound
        · rename_i hid
          obtain rfl := Option.some.inj hfound
          exact ⟨row, hid ▸ hrow, (Prod.mk.inj haddress).2.symm⟩
        · exact ⟨found, hfound, rfl⟩
      obtain ⟨keptFirst, hkeptFirst, hendFirst⟩ := hold first firstRow hfirst
      obtain ⟨keptSecond, hkeptSecond, hendSecond⟩ := hold second secondRow hsecond
      exact hunique first second keptFirst keptSecond hkeptFirst hkeptSecond (by rw [hendFirst, hendSecond, hsame])
  | added newId row hnew hissued hfree hnext =>
      rw [hnext, Table.lookup_insert_eq_ite] at hfirst hsecond
      split at hfirst <;> split at hsecond
      · rename_i hone htwo
        rw [hone, htwo]
      · obtain rfl := Option.some.inj hfirst
        exact absurd hsame.symm (Tables.byEndpoint_eq_none hfree hsecond)
      · obtain rfl := Option.some.inj hsecond
        exact absurd hsame (Tables.byEndpoint_eq_none hfree hfirst)
      · exact hunique first second firstRow secondRow hfirst hsecond hsame

theorem Tables.Resubscribed.owns (h : tables.Resubscribed next)
    (hissued : ∀ id, (tables.pushSubscriptions.lookup id).isSome → tables.Issued id)
    (howns : tables.Owns userId endpoint) : next.Owns userId endpoint := by
  obtain ⟨id, row, hrow, howner, hendpoint⟩ := howns
  cases h with
  | same hrows => exact ⟨id, row, hrows ▸ hrow, howner, hendpoint⟩
  | written other found change hfound hnext haddress =>
      by_cases hid : id = other
      · subst hid
        rw [hrow] at hfound
        obtain rfl := Option.some.inj hfound
        obtain ⟨huser, hend⟩ := Prod.mk.inj haddress
        exact ⟨id, change, by rw [hnext, AList.lookup_insert], huser.trans howner, hend.trans hendpoint⟩
      · exact ⟨id, row, by rw [hnext, AList.lookup_insert_ne hid, hrow], howner, hendpoint⟩
  | added newId added hnew _ hfree hnext =>
      have hother : id ≠ newId := by
        intro hid
        refine hnew (hissued newId ?_)
        rw [← hid, hrow]
        rfl
      exact ⟨id, row, by rw [hnext, AList.lookup_insert_ne hother, hrow], howner, hendpoint⟩

variable {env : Env} {state after : State} {event : Event} {records : List Record}

theorem Turn.unique (h : Turn env state event after records) (hunique : state.tables.UniqueEndpoints) :
    after.tables.UniqueEndpoints := by
  cases h with
  | quiet hquiet => exact hquiet.rows.unique hunique
  | testing userId hquiet => exact hquiet.rows.unique hunique
  | advanced hjob hstep => exact hstep.resubscribed.2.2.unique hunique
  | unsubscribed auth text forgotten =>
      intro first second firstRow secondRow hfirst hsecond hsame
      exact hunique first second firstRow secondRow (Table.lookup_of_lookup_select hfirst)
        (Table.lookup_of_lookup_select hsecond) hsame
  | _ => exact hunique

/-- An account loses no endpoint that it does not unsubscribe. -/
theorem Turn.owns (h : Turn env state event after records) (hkeeps : event.Keeps userId)
    (hissued : ∀ id, (state.tables.pushSubscriptions.lookup id).isSome → state.tables.Issued id)
    (howns : state.tables.Owns userId endpoint) : after.tables.Owns userId endpoint := by
  cases h with
  | quiet hquiet => exact hquiet.rows.owns hissued howns
  | testing other hquiet => exact hquiet.rows.owns hissued howns
  | advanced hjob hstep => exact hstep.resubscribed.2.2.owns hissued howns
  | unsubscribed auth text forgotten =>
      obtain ⟨id, row, hrow, howner, hendpoint⟩ := howns
      refine ⟨id, row, Table.lookup_select_of_true hrow ?_, howner, hendpoint⟩
      have hforeign : (row.userId == auth.userId) = false := by
        rw [howner]
        simpa using fun hsame => hkeeps hsame.symm
      simp [hforeign]
  | _ => exact howns

end

/-! ### Every run -/

section

variable (env : Env) (site : Site)

theorem uniqueEndpoints_run (events : List Event) : (after env site events).tables.UniqueEndpoints := by
  induction events using List.reverseRecOn with
  | nil => exact fun first second firstRow secondRow hfirst => by cases hfirst
  | append_singleton events event ih =>
      rw [after, Machine.run_append]
      exact (worker_turn env site _ event).unique ih

/-- What an account has, it keeps until it unsubscribes. -/
theorem owns_run (before rest : List Event) (userId : Uuid) (endpoint : String)
    (howns : (after env site before).tables.Owns userId endpoint) (hkeeps : ∀ event ∈ rest, event.Keeps userId) :
    (after env site (before ++ rest)).tables.Owns userId endpoint := by
  induction rest using List.reverseRecOn with
  | nil => rwa [List.append_nil]
  | append_singleton rest event ih =>
      have hbefore := ih fun other hother => hkeeps other (List.mem_append_left _ hother)
      rw [← List.append_assoc, after, Machine.run_append]
      exact (worker_turn env site _ event).owns (hkeeps event (List.mem_append_right _ List.mem_cons_self))
        (leased_run env site (before ++ rest)).subscribed hbefore

end

def browserRegistered : List Event :=
  [.server (.signUp gardener.userId), .server (.signUp neighbour.userId),
    .subscribe gardener ⟨30⟩ browser ⟨3000⟩]

/-- The neighbour asks for the endpoint, and asks for it to be forgotten. -/
def neighbourAsks : List Event :=
  [.subscribe neighbour ⟨31⟩ browser ⟨4000⟩, .unsubscribe neighbour browser.endpoint]

end ShishiTodo.Push
