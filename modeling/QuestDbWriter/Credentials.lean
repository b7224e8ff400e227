import QuestDbWriter.Options.Startable
import QuestDbWriter.Options.Connection
import QuestDbWriter.Lib.Base64

/-!
# The credentials

From the form of a connection flow to the header that every request to QuestDB carries. The flows
store a user name and a password together or neither, `connection_configuration` takes them from
the entry, and the transport writes them into `Authorization`. `credentials_received` follows them
to the server, which splits what it reads at the first colon.
-/

namespace QuestDbWriter

open Lib

/-! ## The header -/

/-- `IlpHttpTransport.__init__`: the header `Authorization`, where there are credentials. -/
def authorization (username password : Option PyStr) : Except Exc (Option PyStr) := do
  raiseUnless (username.isNone = password.isNone)
    { type := .valueError, message := py "username and password must be provided together" }
  match username, password with
  | some username, some password =>
    let credentials ← encodeUtf8 (username ++ py ":" ++ password)
    pure (some (py "Basic " ++ Base64.encode credentials))
  | _, _ => pure none

/-- The header of the requests to the server of an entry. -/
def ConnectionConfiguration.authorization (c : ConnectionConfiguration) :
    Except Exc (Option PyStr) :=
  QuestDbWriter.authorization c.username c.password

/-- The user name and the password that a server finds in the header. -/
def credentialsOf (header : PyStr) : Option (PyStr × PyStr) := do
  if py "Basic " <+: header then
    let credentials ← Base64.decode (header.drop (py "Basic ").length)
    let text ← Utf8.decode credentials
    if ofChar ':' ∈ text then
      some (text.takeWhile (· ≠ ofChar ':'), (text.dropWhile (· ≠ ofChar ':')).tail)
    else none
  else none

/-- A character that ends no line of a request. -/
def IsHeaderChar (c : CodePoint) : Prop := 32 ≤ c.val ∧ c.val ≤ 126

instance (c : CodePoint) : Decidable (IsHeaderChar c) := inferInstanceAs (Decidable (_ ∧ _))

/-- The text behind a first colon. -/
theorem split_colon {username : PyStr} (h : ofChar ':' ∉ username) (password : PyStr) :
    (username ++ py ":" ++ password).takeWhile (· ≠ ofChar ':') = username ∧
      ((username ++ py ":" ++ password).dropWhile (· ≠ ofChar ':')).tail = password := by
  have hcolon : py ":" = [ofChar ':'] := rfl
  induction username with
  | nil => simp [hcolon]
  | cons c username ih =>
    obtain ⟨hc, hrest⟩ := not_or.mp (fun hm => h (List.mem_cons.mpr hm))
    obtain ⟨htake, hdrop⟩ := ih hrest
    simpa [Ne.symm hc] using And.intro htake hdrop

/-- **A server reads what was written**, unless the user name has a colon. -/
theorem authorization_read {username password : PyStr}
    (h : Encodable (username ++ py ":" ++ password)) :
    ∃ header, authorization (some username) (some password) = .ok (some header) ∧
      (∀ c ∈ header, IsHeaderChar c) ∧
      (credentialsOf header = some (username, password) ↔ ofChar ':' ∉ username) := by
  obtain ⟨bytes, hbytes⟩ := Option.isSome_iff_exists.mp (Encodable.iff_isSome.mp h)
  have hread : credentialsOf (py "Basic " ++ Base64.encode bytes) =
      some ((username ++ py ":" ++ password).takeWhile (· ≠ ofChar ':'),
        ((username ++ py ":" ++ password).dropWhile (· ≠ ofChar ':')).tail) := by
    have hmem : ofChar ':' ∈ username ++ py ":" ++ password :=
      List.mem_append_left _ (List.mem_append_right _ List.mem_cons_self)
    rw [credentialsOf, if_pos (List.prefix_append _ _), List.drop_left, Base64.decode_encode,
      Option.bind_eq_bind, Option.bind_some, Utf8.decode_encode hbytes, Option.bind_eq_bind,
      Option.bind_some, if_pos hmem]
  have hpair : (some username).isNone = (some password).isNone := rfl
  refine ⟨py "Basic " ++ Base64.encode bytes, ?_, fun c hc => ?_, ?_⟩
  · rw [authorization, raiseUnless, if_pos hpair, encodeUtf8_ok.mpr hbytes]
    rfl
  · rcases List.mem_append.mp hc with hc | hc
    · exact forall_of_all (P := IsHeaderChar) (by decide) c hc
    · obtain ⟨hlow, hhigh⟩ := Base64.encode_char c hc
      exact ⟨by omega, hhigh⟩
  · rw [hread]
    constructor
    · intro hsame hcolon
      have htake := congrArg Prod.fst (Option.some.inj hsame)
      dsimp only at htake
      rw [← htake] at hcolon
      have hne := List.mem_takeWhile_imp hcolon
      simp at hne
    · intro hcolon
      obtain ⟨htake, hdrop⟩ := split_colon hcolon password
      rw [htake, hdrop]

/-- Texts without UTF-8 bytes raise, and no others. -/
theorem authorization_ok {username password : PyStr} :
    (∃ header, authorization (some username) (some password) = .ok header) ↔
      Encodable username ∧ Encodable password := by
  constructor
  · rintro ⟨header, h⟩
    have hpair : (some username).isNone = (some password).isNone := rfl
    rw [authorization, raiseUnless, if_pos hpair] at h
    obtain ⟨_, -, h⟩ := bind_ok.mp h
    obtain ⟨bytes, hbytes, -⟩ := bind_ok.mp h
    have htext : Encodable (username ++ py ":" ++ password) :=
      Encodable.iff_isSome.mpr (Option.isSome_iff_exists.mpr ⟨bytes, encodeUtf8_ok.mp hbytes⟩)
    exact ⟨(htext.sublist (List.sublist_append_left _ _)).sublist (List.sublist_append_left _ _),
      htext.sublist (List.sublist_append_right _ _)⟩
  · rintro ⟨hname, hpassword⟩
    obtain ⟨header, h, -⟩ :=
      authorization_read ((hname.append (Encodable.py (by decide))).append hpassword)
    exact ⟨_, h⟩

/-! ## What the flows store -/

/-- A user name and a password, or neither; none of them is empty. -/
inductive EntryData.Paired (data : EntryData) : Prop where
  | neither (hname : data.username = none) (hpassword : data.password = none)
  | both (username password : PyStr) (hname : data.username = some username)
      (hpassword : data.password = some password) (hne : username ≠ []) (hne' : password ≠ [])

theorem keepStored_ne {text kept : PyStr} {stored : Option PyStr}
    (h : keepStored (orNone text) stored = some kept) : kept ≠ [] := by
  unfold keepStored orNone at h
  by_cases htext : text = []
  · rw [if_pos htext] at h
    have hfilter : stored.filter (· ≠ []) = some kept := h
    simpa using (Option.filter_eq_some_iff.mp hfilter).2
  · rw [if_neg htext] at h
    cases h
    exact htext

section
variable {lower : PyStr → PyStr} {s : ConfigEntries} {e : ConfigEntry}

/-- Every entry behind the end of the step is one from before, or has the new data. -/
theorem storeConnection_entries {source : FlowSource} {found : Option ConfigEntry}
    {newData : EntryData}
    (he : e ∈ (storeConnection lower source found newData s).2.entries) :
    e ∈ s.entries ∨ e.data = newData := by
  have hupdate : ∀ {entry : ConfigEntry} {uniqueId : Option PyStr},
      e ∈ (s.update entry newData uniqueId).entries → e ∈ s.entries ∨ e.data = newData := by
    intro entry uniqueId he
    rcases mem_replaceKey he with rfl | ⟨he, -⟩
    · exact .inr rfl
    · exact .inl he
  unfold storeConnection at he
  dsimp only at he
  split at he
  · split at he
    · exact hupdate he
    · split at he
      · split at he
        · exact .inl he
        · exact hupdate he
      · exact hupdate he
  · split at he
    · exact .inl he
    · rcases List.mem_append.mp he with he | he
      · exact .inl he
      · rw [List.mem_singleton.mp he]
        exact .inr rfl

/-- **A call stores credentials in pairs.** -/
theorem asyncConnectionStep_paired (c : FlowCall)
    (he : e ∈ (asyncConnectionStep lower c s).2.entries) : e ∈ s.entries ∨ e.data.Paired := by
  unfold asyncConnectionStep at he
  split at he
  · exact .inl he
  · next found hfound =>
    split at he
    · next userInput _ =>
      unfold submitConnection at he
      dsimp only at he
      split at he
      · exact .inl he
      · split at he
        · exact .inl he
        · split at he
          · exact .inl he
          · split at he
            · exact .inl he
            · next hpair =>
              split at he
              · split at he <;> exact .inl he
              · exact .inl he
              · refine (storeConnection_entries he).imp_right fun hdata => ?_
                rw [not_not] at hpair
                rw [hdata]
                generalize hname : keepStored (orNone (strip _)) _ = username at hpair ⊢
                generalize hpassword : keepStored (orNone _) _ = password at hpair ⊢
                cases username with
                | none =>
                  cases password with
                  | none => exact .neither rfl rfl
                  | some password => cases hpair
                | some username =>
                  cases password with
                  | none => cases hpair
                  | some password =>
                    exact .both username password rfl rfl (keepStored_ne hname)
                      (keepStored_ne hpassword)
    · exact .inl he

end

/-! ## From the form to the server -/

/-- **The credentials that are entered are those that the server reads.** Behind every sequence of
calls of the flows, from no entries on, an entry has a user name and a password, none of them empty,
or neither; where it has neither the requests carry no header, and where it has both the header can
be made exactly if both have UTF-8 bytes, ends no line of the request, and is read as the two
exactly if the user name has no colon. -/
theorem credentials_received (lower : PyStr → PyStr) (s : ConfigEntries)
    (hrun : Steps (flowStep lower) (fun _ _ => True) .empty s) (e : ConfigEntry)
    (he : e ∈ s.entries) (options : Tuning) :
    let result := (connectionConfiguration e.data options).authorization
    (e.data.username = none ∧ e.data.password = none ∧ result = .ok none) ∨
      ∃ username password, e.data.username = some username ∧ e.data.password = some password ∧
        username ≠ [] ∧ password ≠ [] ∧
        ((∃ header, result = .ok header) ↔ Encodable username ∧ Encodable password) ∧
        ∀ header, result = .ok header → ∃ text, header = some text ∧
          (∀ c ∈ text, IsHeaderChar c) ∧
          (credentialsOf text = some (username, password) ↔ ofChar ':' ∉ username) := by
  have hpaired : ∀ e ∈ s.entries, e.data.Paired := by
    refine hrun.invariant (I := fun t => ∀ e ∈ t.entries, e.data.Paired) (fun e he => by cases he)
      fun t c t' h _ hs e he => ?_
    cases hs
    exact (asyncConnectionStep_paired c he).elim (h e) id
  intro result
  have hresult : result = authorization (e.data.username.filter (· ≠ []))
      (e.data.password.filter (· ≠ [])) := rfl
  cases hpaired e he with
  | neither hname hpassword =>
    rw [hname, hpassword] at hresult
    exact .inl ⟨hname, hpassword, hresult⟩
  | both username password hname hpassword hne hne' =>
    have hboth : result = authorization (some username) (some password) := by
      rw [hresult, hname, hpassword]
      simp [Option.filter, hne, hne']
    refine .inr ⟨username, password, hname, hpassword, hne, hne', ?_, fun header hheader => ?_⟩
    · rw [hboth]
      exact authorization_ok
    · rw [hboth] at hheader
      obtain ⟨hencodable, hencodable'⟩ := authorization_ok.mp ⟨header, hheader⟩
      obtain ⟨text, htext, hchars, hread⟩ := authorization_read
        ((hencodable.append (Encodable.py (by decide))).append hencodable')
      exact ⟨text, Except.ok.inj (hheader.symm.trans htext), hchars, hread⟩

/-- The first entry of the moving flows is read with the credentials of its reauthentication. -/
theorem movingFlows_received : ∃ (s : ConfigEntries) (e : ConfigEntry) (text : PyStr),
    exec (flowStep asciiLower) movingFlows .empty = some s ∧ e ∈ s.entries ∧
      (connectionConfiguration e.data []).authorization = .ok (some text) ∧
      (∀ c ∈ text, IsHeaderChar c) ∧ credentialsOf text = some (py "admin", py "secret") := by
  have hrun : ((exec (flowStep asciiLower) movingFlows .empty).any fun s =>
      s.entries.any fun e => decide (e.data.username = some (py "admin")) &&
        decide (e.data.password = some (py "secret"))) = true := by
    decide +kernel
  obtain ⟨s, hs, hany⟩ := (Option.any_eq_true _ _).mp hrun
  obtain ⟨e, he, hdata⟩ := List.any_eq_true.mp hany
  obtain ⟨hname, hpassword⟩ := (Bool.and_eq_true _ _).mp hdata
  rcases credentials_received asciiLower s (.of_exec hs) e he [] with
    ⟨hnone, -⟩ | ⟨username, password, hname', hpassword', -, -, hmade, hread⟩
  · cases (of_decide_eq_true hname).symm.trans hnone
  · cases (of_decide_eq_true hname).symm.trans hname'
    cases (of_decide_eq_true hpassword).symm.trans hpassword'
    obtain ⟨header, hheader⟩ := hmade.mpr ⟨.py (by decide), .py (by decide)⟩
    obtain ⟨text, rfl, hchars, hback⟩ := hread header hheader
    exact ⟨s, e, text, hs, he, hheader, hchars, hback.mpr (by decide)⟩

end QuestDbWriter
