/-
`IceServer.to_url` of `config.py`: the credentials of a TURN server, put
into its URL.

Both halves are percent-encoded, so they hold none of the delimiters
(`delimiters_quote`), and the three splits that take the URL apart find
exactly the ones `to_url` put there: `credentials_survive`.

Credentials that are in the URL already are to be refused. The check
looks at what follows the scheme up to the first `/`. That is not the
authority: a URL may have `//` before it, and `?` or `#` behind.
`rejectsCredentials_iff` says for which URLs the two agree.
-/
import AioLibDataChannel.Native.Bindings
import AioLibDataChannel.Url.Percent
import Mathlib.Data.List.Basic

namespace AioLibDataChannel

-- ================================================================ text

def colon : Fin 0x110000 := codePoint ':'
def atSign : Fin 0x110000 := codePoint '@'
def slash : Fin 0x110000 := codePoint '/'
def questionMark : Fin 0x110000 := codePoint '?'
def hashSign : Fin 0x110000 := codePoint '#'

/-- The character of an ASCII byte. -/
def ofByte (b : UInt8) : Fin 0x110000 := ⟨b.toNat, Nat.lt_trans b.toNat_lt (by decide)⟩

namespace PyStr

/-- The `str` of some ASCII bytes. -/
def ofAscii (bytes : List UInt8) : PyStr := bytes.map ofByte

/-- `str.partition`, for a separator of one character. -/
def partition (sep : Fin 0x110000) (s : PyStr) : PyStr × PyStr × PyStr :=
  (s.takeWhile (· ≠ sep), (s.dropWhile (· ≠ sep)).take 1, (s.dropWhile (· ≠ sep)).drop 1)

/-- Split at the first separator. -/
theorem partition_append {sep : Fin 0x110000} {front : PyStr} (h : sep ∉ front)
    (back : PyStr) : (front ++ sep :: back).partition sep = (front, [sep], back) := by
  have hall : ∀ c ∈ front, decide (c ≠ sep) = true := by
    intro c hc
    exact decide_eq_true fun heq => h (heq ▸ hc)
  have hdrop : (front ++ sep :: back).dropWhile (· ≠ sep) = sep :: back := by
    rw [List.dropWhile_append_of_pos hall, List.dropWhile_cons_of_neg (by simp)]
  have htake : (front ++ sep :: back).takeWhile (· ≠ sep) = front := by
    rw [List.takeWhile_append_of_pos hall, List.takeWhile_cons_of_neg (by simp),
      List.append_nil]
  rw [partition, hdrop, htake]
  rfl

/-- No separator is in what is split off first. -/
theorem not_mem_partition (sep : Fin 0x110000) (s : PyStr) : sep ∉ (s.partition sep).1 := by
  intro hmem
  have hne := List.mem_takeWhile_imp hmem
  simp at hne

/-- No two bytes are one character. -/
theorem ofByte_injective : Function.Injective ofByte := by
  intro b b' h
  have hval : (ofByte b).val = (ofByte b').val := by rw [h]
  exact UInt8.toNat_inj.mp hval

/-- The characters of a byte string are those of its bytes. -/
theorem mem_ofAscii {b : UInt8} {bytes : List UInt8} :
    ofByte b ∈ ofAscii bytes ↔ b ∈ bytes :=
  List.mem_map_of_injective ofByte_injective

end PyStr

-- ============================================================== the source

/-- What `to_url` raises. A `ValueError` has this text with the `repr` of
the URL behind it. -/
inductive UrlError
  | valueError (text : String) (url : PyStr)
  | unicodeEncodeError
deriving DecidableEq, Repr

/-- `urllib.parse.quote(s, safe="")`. -/
def quote (s : PyStr) : Except UrlError PyStr :=
  match s.toChars? with
  | some text => .ok (PyStr.ofAscii (Percent.quote (CString.encode text)))
  | none => .error .unicodeEncodeError

/-- `IceServer`. -/
structure IceServer where
  url : PyStr
  username : Option PyStr
  credential : Option PyStr
deriving DecidableEq, Repr

/-- What is before the first `:` of a URL. -/
def schemeOf (url : PyStr) : PyStr := (url.partition colon).1

/-- What is behind it. -/
def remainderOf (url : PyStr) : PyStr := (url.partition colon).2.2

namespace IceServer

def notPrefixed : String := "IceServer.url is not a scheme-prefixed URL: "

def alreadyCarries : String :=
  "IceServer.url already carries credentials; pass them via "
    ++ "username/credential instead of embedding them in the URL: "

/-- `to_url`. -/
def toUrl (server : IceServer) : Except UrlError PyStr :=
  if server.username = none ∧ server.credential = none then .ok server.url
  else
    let scheme := schemeOf server.url
    let remainder := remainderOf server.url
    if remainder = [] then .error (.valueError notPrefixed server.url)
    else if atSign ∈ remainder.takeWhile (· ≠ slash)
      then .error (.valueError alreadyCarries server.url)
    else do
      let user ← quote (server.username.getD [])
      let cred ← quote (server.credential.getD [])
      .ok (scheme ++ colon :: (user ++ colon :: (cred ++ atSign :: remainder)))

end IceServer

-- ================================================================ quoting

/-- What `quote` returns is the percent-encoding of the text's UTF-8. -/
theorem quote_eq_ok {s quoted : PyStr} (h : quote s = .ok quoted) :
    ∃ text, s.toChars? = some text
      ∧ quoted = PyStr.ofAscii (Percent.quote (CString.encode text)) := by
  unfold quote at h
  split at h
  next text htext =>
    cases h
    exact ⟨text, htext, rfl⟩
  next => cases h

/-- A quoted `str` holds no delimiter. -/
theorem delimiters_quote {s quoted : PyStr} (h : quote s = .ok quoted) :
    colon ∉ quoted ∧ atSign ∉ quoted ∧ slash ∉ quoted ∧ questionMark ∉ quoted
      ∧ hashSign ∉ quoted := by
  obtain ⟨text, -, rfl⟩ := quote_eq_ok h
  have hnot : ∀ b : UInt8, Percent.unreserved b = false → b ≠ 37 →
      ofByte b ∉ PyStr.ofAscii (Percent.quote (CString.encode text)) := by
    intro b hb hp hmem
    exact Percent.not_mem_quote hb hp _ (PyStr.mem_ofAscii.mp hmem)
  exact ⟨hnot 58 (by decide) (by decide), hnot 64 (by decide) (by decide),
    hnot 47 (by decide) (by decide), hnot 63 (by decide) (by decide),
    hnot 35 (by decide) (by decide)⟩

/-- Percent-decoding, of text that is UTF-8 behind it. -/
def unquote (s : PyStr) : Option PyStr := do
  let text ← s.toChars?
  let decoded ← CString.decode? (Percent.unquote (CString.encode text))
  some (PyStr.ofChars decoded)

/-- ASCII bytes are a text, and encode to themselves. -/
theorem toChars?_ofAscii {bytes : List UInt8} (h : ∀ b ∈ bytes, b.toNat < 128) :
    ∃ text, (PyStr.ofAscii bytes).toChars? = some text ∧ CString.encode text = bytes := by
  induction bytes with
  | nil => exact ⟨[], rfl, rfl⟩
  | cons b rest ih =>
      obtain ⟨text, htext, henc⟩ := ih fun x hx => h x (List.mem_cons_of_mem b hx)
      have hb : b.toNat < 128 := h b List.mem_cons_self
      have hvalid : b.toNat.isValidChar := Or.inl (by omega)
      obtain ⟨c, hchar, hval⟩ : ∃ c, charOf? (ofByte b) = some c ∧ c.val.toNat = b.toNat :=
        ⟨_, dif_pos hvalid, rfl⟩
      have hbyte : String.utf8EncodeChar c = [b] := by
        simp only [String.utf8EncodeChar, hval]
        rw [if_pos (by omega)]
        simp
      refine ⟨c :: text, ?_, ?_⟩
      · show List.mapM charOf? (ofByte b :: PyStr.ofAscii rest) = _
        have hrest : List.mapM charOf? (PyStr.ofAscii rest) = some text := htext
        rw [List.mapM_cons, hchar, hrest]
        rfl
      · show String.utf8EncodeChar _ ++ CString.encode text = _
        rw [hbyte, henc]
        rfl

/-- Percent-decoding undoes quoting. -/
theorem unquote_quote {s quoted : PyStr} (h : quote s = .ok quoted) :
    unquote quoted = some s := by
  obtain ⟨text, htext, rfl⟩ := quote_eq_ok h
  have hlow : ∀ b ∈ Percent.quote (CString.encode text), b.toNat < 128 :=
    fun b hb => Percent.lt_of_mem_quote hb
  obtain ⟨ascii, hascii, henc⟩ := toChars?_ofAscii hlow
  simp only [unquote, hascii, Option.bind_eq_bind, Option.bind_some, henc,
    Percent.unquote_quote, CString.decode?_encode, PyStr.ofChars_of_toChars? htext]

namespace IceServer

variable {server : IceServer} {result : PyStr}

/-- Credentials are given: not both are `None`. -/
def Given (server : IceServer) : Prop :=
  server.username ≠ none ∨ server.credential ≠ none

/-- Both credentials can be encoded as UTF-8. -/
def Encodable (server : IceServer) : Prop :=
  (∃ user, quote (server.username.getD []) = .ok user)
    ∧ ∃ cred, quote (server.credential.getD []) = .ok cred

/-- The part of the URL that is looked at for credentials. -/
def inspected (server : IceServer) : PyStr := (remainderOf server.url).takeWhile (· ≠ slash)

/-- What `to_url` makes of given credentials. -/
inductive Flattens (server : IceServer) : Except UrlError PyStr → Prop
  | unprefixed (hr : remainderOf server.url = []) :
      Flattens server (.error (.valueError notPrefixed server.url))
  | carries (hr : remainderOf server.url ≠ []) (ha : atSign ∈ server.inspected) :
      Flattens server (.error (.valueError alreadyCarries server.url))
  | unencodable (hr : remainderOf server.url ≠ []) (ha : atSign ∉ server.inspected)
      (he : ¬ server.Encodable) : Flattens server (.error .unicodeEncodeError)
  | flat (user cred : PyStr) (hr : remainderOf server.url ≠ [])
      (ha : atSign ∉ server.inspected)
      (hu : quote (server.username.getD []) = .ok user)
      (hc : quote (server.credential.getD []) = .ok cred) :
      Flattens server (.ok (schemeOf server.url
        ++ colon :: (user ++ colon :: (cred ++ atSign :: remainderOf server.url))))

/-- `quote` raises nothing but `UnicodeEncodeError`: at a lone
surrogate. -/
theorem quote_eq_error {s : PyStr} {e : UrlError} (h : quote s = .error e) :
    e = .unicodeEncodeError := by
  unfold quote at h
  split at h
  next => cases h
  next => exact (Except.error.inj h).symm

/-- Given one credential, `to_url` does just that. -/
theorem flattens_toUrl (hgiven : server.Given) : Flattens server server.toUrl := by
  unfold toUrl
  rw [if_neg (by rintro ⟨hu, hc⟩; exact hgiven.elim (absurd hu) (absurd hc))]
  by_cases hr : remainderOf server.url = []
  · simp only [if_pos hr]
    exact .unprefixed hr
  · simp only [if_neg hr]
    by_cases ha : atSign ∈ (remainderOf server.url).takeWhile (· ≠ slash)
    · simp only [if_pos ha]
      exact .carries hr ha
    · simp only [if_neg ha]
      cases hu : quote (server.username.getD []) with
      | error e =>
          rw [quote_eq_error hu]
          refine .unencodable hr ha fun he => ?_
          obtain ⟨user, huser⟩ := he.1
          cases hu.symm.trans huser
      | ok user =>
          cases hc : quote (server.credential.getD []) with
          | error e =>
              rw [quote_eq_error hc]
              refine .unencodable hr ha fun he => ?_
              obtain ⟨cred, hcred⟩ := he.2
              cases hc.symm.trans hcred
          | ok cred => exact .flat user cred hr ha hu hc

-- ===================================================== the way back

/-- A URL taken apart: at its first `:`, at the first `@` of the rest, and
the userinfo at its first `:`. -/
def takeApart (url : PyStr) : PyStr × PyStr × PyStr × PyStr :=
  let (scheme, _, rest) := url.partition colon
  let (userinfo, _, address) := rest.partition atSign
  let (user, _, cred) := userinfo.partition colon
  (scheme, user, cred, address)

/-- The splits find the delimiters that were put there. -/
theorem takeApart_join {scheme user cred : PyStr} (hs : colon ∉ scheme) (hu : colon ∉ user)
    (hau : atSign ∉ user) (hac : atSign ∉ cred) (address : PyStr) :
    takeApart (scheme ++ colon :: (user ++ colon :: (cred ++ atSign :: address)))
      = (scheme, user, cred, address) := by
  have hcolon : atSign ≠ colon := by decide
  have huserinfo : atSign ∉ user ++ colon :: cred := by
    simp only [List.mem_append, List.mem_cons, not_or]
    exact ⟨hau, hcolon, hac⟩
  have hassoc : user ++ colon :: (cred ++ atSign :: address)
      = (user ++ colon :: cred) ++ atSign :: address := by
    rw [List.append_assoc]
    rfl
  simp only [takeApart, PyStr.partition_append hs]
  rw [hassoc]
  simp only [PyStr.partition_append huserinfo, PyStr.partition_append hu]

/-- Whatever `to_url` returns for given credentials comes apart into the
scheme, the credentials and the remainder of the URL it was given. -/
theorem credentials_survive (hgiven : server.Given) (h : server.toUrl = .ok result) :
    ∃ user cred, takeApart result
        = (schemeOf server.url, user, cred, remainderOf server.url)
      ∧ unquote user = some (server.username.getD [])
      ∧ unquote cred = some (server.credential.getD []) := by
  have hflat := flattens_toUrl hgiven
  rw [h] at hflat
  cases hflat with
  | flat user cred hr ha hu hc =>
      have hscheme := PyStr.not_mem_partition colon server.url
      obtain ⟨hcolon, hat, -⟩ := delimiters_quote hu
      obtain ⟨-, hat', -⟩ := delimiters_quote hc
      refine ⟨user, cred, ?_, unquote_quote hu, unquote_quote hc⟩
      exact takeApart_join hscheme hcolon hat hat' _

/-- A user name and a password with delimiters in them. -/
def reservedServer : IceServer where
  url := PyStr.ofChars ['t', 'u', 'r', 'n', ':', 'h', ':', '1']
  username := some (PyStr.ofChars ['a', '@', ':', 'é'])
  credential := some (PyStr.ofChars ['/', '%'])

/-- `credentials_survive` at `reservedServer`. -/
theorem credentials_survive_reservedServer :
    ∃ result user cred, reservedServer.toUrl = .ok result
      ∧ takeApart result
        = (schemeOf reservedServer.url, user, cred, remainderOf reservedServer.url)
      ∧ unquote user = some (reservedServer.username.getD [])
      ∧ unquote cred = some (reservedServer.credential.getD []) := by
  obtain ⟨result, hresult⟩ : ∃ result, reservedServer.toUrl = .ok result := ⟨_, rfl⟩
  obtain ⟨user, cred, hall⟩ := credentials_survive (Or.inl (by decide)) hresult
  exact ⟨result, user, cred, hresult, hall⟩

-- ===================================================== what is refused

/-- A character the authority of a URL ends at. -/
def endsAuthority (c : Fin 0x110000) : Bool :=
  decide (c = slash ∨ c = questionMark ∨ c = hashSign)

/-- The remainder of the URL begins with `//`. -/
def slashed (url : PyStr) : Bool := [slash, slash].isPrefixOf (remainderOf url)

/-- The authority of a URL: what follows the `:` of the scheme and a `//`
that may be there, up to the first `/`, `?` or `#`. -/
def authority (url : PyStr) : PyStr :=
  (if slashed url then (remainderOf url).drop 2 else remainderOf url).takeWhile
    fun c => !endsAuthority c

/-- Credentials in the authority are refused, and nothing else is on
their account; a URL that is returned has the given pair before the host,
and no other. -/
structure RejectsCredentials (server : IceServer) : Prop where
  rejected : server.toUrl = .error (.valueError alreadyCarries server.url)
    ↔ atSign ∈ authority server.url
  carried : ∀ result, server.toUrl = .ok result →
    ∃ user cred, quote (server.username.getD []) = .ok user
      ∧ quote (server.credential.getD []) = .ok cred
      ∧ authority result = user ++ colon :: (cred ++ atSign :: authority server.url)
      ∧ atSign ∉ authority server.url

/-- What is looked at is the authority, as far as it matters: after `//`
there is none, or it holds no credentials and the given ones cannot be
encoded; otherwise no `?` or `#` stands before the first `@`. -/
def InspectsAuthority (server : IceServer) : Prop :=
  if slashed server.url then
    authority server.url = [] ∨ (atSign ∉ authority server.url ∧ ¬ server.Encodable)
  else
    atSign ∈ server.inspected →
      ∀ c ∈ server.inspected.takeWhile (· ≠ atSign), c ≠ questionMark ∧ c ≠ hashSign

/-- After `//` nothing is looked at. -/
theorem inspected_of_slashed (hs : slashed server.url = true) : server.inspected = [] := by
  obtain ⟨rest, hrest⟩ := List.isPrefixOf_iff_prefix.mp hs
  rw [inspected, ← hrest]
  exact List.takeWhile_cons_of_neg (by simp)

/-- Without a `//` the authority begins right behind the colon. -/
theorem authority_of_not_slashed {url : PyStr} (hs : slashed url = false) :
    authority url = (remainderOf url).takeWhile fun c => !endsAuthority c := by
  rw [authority, hs]
  rfl

/-- Without `//`, the authority is what is looked at, up to a `?` or
`#`. -/
theorem authority_eq_inspected (hs : slashed server.url = false) :
    authority server.url = server.inspected.takeWhile fun c => !endsAuthority c := by
  rw [authority_of_not_slashed hs, inspected, List.takeWhile_takeWhile]
  congr 1
  funext c
  by_cases hc : c = slash
  · simp [endsAuthority, hc]
  · simp [hc]

/-- It holds the same `@` exactly if no `?` or `#` comes first. -/
theorem mem_authority_iff {l : PyStr} (hslash : slash ∉ l) :
    (atSign ∈ l → atSign ∈ l.takeWhile fun c => !endsAuthority c)
      ↔ (atSign ∈ l → ∀ c ∈ l.takeWhile (· ≠ atSign), c ≠ questionMark ∧ c ≠ hashSign) := by
  induction l with
  | nil => simp
  | cons c rest ih =>
      have hrest : slash ∉ rest := fun hmem => hslash (List.mem_cons_of_mem c hmem)
      have hc : c ≠ slash := fun heq => hslash (heq ▸ List.mem_cons_self)
      by_cases hat : c = atSign
      · subst hat
        have hend : endsAuthority atSign = false := by decide
        simp [hend]
      · have hne : atSign ≠ c := fun heq => hat heq.symm
        by_cases hend : c = questionMark ∨ c = hashSign
        · have hstop : endsAuthority c = true := decide_eq_true (Or.inr hend)
          simp only [List.mem_cons, hne, false_or, List.takeWhile_cons, hstop, Bool.not_true,
            Bool.false_eq_true, if_false, List.not_mem_nil, hat, ne_eq, not_false_eq_true,
            decide_true, if_true]
          refine imp_congr_right fun _ => iff_of_false id fun hall => ?_
          have hboth := hall c (Or.inl rfl)
          exact hend.elim hboth.1 hboth.2
        · have hgo : endsAuthority c = false := by
            refine decide_eq_false ?_
            rintro (heq | heq)
            · exact hc heq
            · exact hend heq
          simp only [List.mem_cons, hne, false_or, List.takeWhile_cons, hgo, Bool.not_false,
            if_true, hat, ne_eq, not_false_eq_true, decide_true, forall_eq_or_imp]
          rw [ih hrest]
          have hself : c ≠ questionMark ∧ c ≠ hashSign := not_or.mp hend
          exact imp_congr_right fun _ => ⟨fun hall => ⟨hself, hall⟩, fun hall => hall.2⟩

/-- What is returned has the credentials at the front of its authority,
with or without a `//` behind them. -/
theorem authority_flat {scheme user cred : PyStr} {username credential : PyStr}
    (hs : colon ∉ scheme) (hu : quote username = .ok user)
    (hc : quote credential = .ok cred) (remainder : PyStr) :
    authority (scheme ++ colon :: (user ++ colon :: (cred ++ atSign :: remainder)))
      = user ++ colon ::
        (cred ++ atSign :: remainder.takeWhile fun c => !endsAuthority c) := by
  have hrem : remainderOf
        (scheme ++ colon :: (user ++ colon :: (cred ++ atSign :: remainder)))
      = user ++ colon :: (cred ++ atSign :: remainder) := by
    rw [remainderOf, PyStr.partition_append hs]
  have hpass : ∀ {s quoted : PyStr}, quote s = .ok quoted →
      ∀ c ∈ quoted, (!endsAuthority c) = true := by
    intro s quoted hq c hmem
    obtain ⟨-, -, hslash, hquestion, hhash⟩ := delimiters_quote hq
    have hend : endsAuthority c = false := by
      refine decide_eq_false ?_
      rintro (rfl | rfl | rfl)
      · exact hslash hmem
      · exact hquestion hmem
      · exact hhash hmem
    rw [hend]
    rfl
  have hslashed : slashed (scheme ++ colon ::
      (user ++ colon :: (cred ++ atSign :: remainder))) = false := by
    rw [slashed, hrem]
    cases user with
    | nil => rfl
    | cons c rest =>
        have hne : slash ≠ c := fun heq =>
          (delimiters_quote hu).2.2.1 (heq ▸ List.mem_cons_self)
        show (slash == c && _) = false
        rw [beq_eq_false_iff_ne.mpr hne, Bool.false_and]
  have hcolon : (!endsAuthority colon) = true := by decide
  have hat : (!endsAuthority atSign) = true := by decide
  rw [authority_of_not_slashed hslashed, hrem, List.takeWhile_append_of_pos (hpass hu),
    List.takeWhile_cons, if_pos hcolon, List.takeWhile_append_of_pos (hpass hc),
    List.takeWhile_cons, if_pos hat]

/-- Behind a `//` there is nothing left for the authority. -/
theorem takeWhile_of_slashed {url : PyStr} (hs : slashed url = true) :
    (remainderOf url).takeWhile (fun c => !endsAuthority c) = [] := by
  obtain ⟨rest, hrest⟩ := List.isPrefixOf_iff_prefix.mp hs
  rw [← hrest]
  exact List.takeWhile_cons_of_neg (by decide)

/-- A URL with `//` is returned whatever its authority holds, with the
credentials before the `//`. -/
theorem rejectsCredentials_slashed (hgiven : server.Given)
    (hr : remainderOf server.url ≠ []) (hs : slashed server.url = true) :
    server.RejectsCredentials
      ↔ authority server.url = [] ∨ (atSign ∉ authority server.url ∧ ¬ server.Encodable) := by
  have hinsp := inspected_of_slashed hs
  have hflat := flattens_toUrl hgiven
  generalize hto : server.toUrl = outcome at hflat
  cases hflat with
  | unprefixed hnil => exact absurd hnil hr
  | carries _ ha =>
      rw [hinsp] at ha
      cases ha
  | unencodable _ _ he =>
      constructor
      · intro h
        refine Or.inr ⟨fun hat => ?_, he⟩
        cases hto.symm.trans (h.rejected.mpr hat)
      · intro h
        refine ⟨⟨fun heq => ?_, fun hat => ?_⟩, fun result hres => ?_⟩
        · cases hto.symm.trans heq
        · rcases h with hnil | ⟨hnot, -⟩
          · rw [hnil] at hat
            cases hat
          · exact absurd hat hnot
        · cases hto.symm.trans hres
  | flat user cred _ _ hu hc =>
      have hauth := authority_flat (PyStr.not_mem_partition colon server.url) hu hc
        (remainderOf server.url)
      rw [takeWhile_of_slashed hs] at hauth
      constructor
      · intro h
        left
        obtain ⟨user', cred', hu', hc', hcarried, -⟩ := h.carried _ hto
        cases hu.symm.trans hu'
        cases hc.symm.trans hc'
        have heq := hauth.symm.trans hcarried
        simpa using heq
      · intro h
        have hnil : authority server.url = [] := by
          rcases h with hnil | ⟨-, he⟩
          · exact hnil
          · exact absurd ⟨⟨user, hu⟩, ⟨cred, hc⟩⟩ he
        refine ⟨⟨fun heq => ?_, fun hat => ?_⟩, fun result hres => ?_⟩
        · cases hto.symm.trans heq
        · rw [hnil] at hat
          cases hat
        · cases hto.symm.trans hres
          refine ⟨user, cred, hu, hc, ?_, ?_⟩
          · rw [hnil]
            exact hauth
          · rw [hnil]
            exact List.not_mem_nil

/-- Without `//` the given pair is always put before the host; what may be
wrong is the refusal. -/
theorem rejectsCredentials_plain (hgiven : server.Given)
    (hr : remainderOf server.url ≠ []) (hs : slashed server.url = false) :
    server.RejectsCredentials
      ↔ (atSign ∈ server.inspected → atSign ∈ authority server.url) := by
  have hauth := authority_eq_inspected hs
  have hsub : atSign ∈ authority server.url → atSign ∈ server.inspected := by
    rw [hauth]
    exact fun hat => (List.takeWhile_sublist _).subset hat
  have hflat := flattens_toUrl hgiven
  generalize hto : server.toUrl = outcome at hflat
  cases hflat with
  | unprefixed hnil => exact absurd hnil hr
  | carries _ ha =>
      constructor
      · exact fun h _ => h.rejected.mp hto
      · intro h
        refine ⟨⟨fun _ => h ha, fun _ => hto⟩, fun result hres => ?_⟩
        cases hto.symm.trans hres
  | unencodable _ ha _ =>
      refine ⟨fun _ hat => absurd hat ha, fun _ => ?_⟩
      refine ⟨⟨fun heq => ?_, fun hat => absurd (hsub hat) ha⟩, fun result hres => ?_⟩
      · cases hto.symm.trans heq
      · cases hto.symm.trans hres
  | flat user cred _ ha hu hc =>
      refine ⟨fun _ hat => absurd hat ha, fun _ => ?_⟩
      refine ⟨⟨fun heq => ?_, fun hat => absurd (hsub hat) ha⟩, fun result hres => ?_⟩
      · cases hto.symm.trans heq
      · cases hto.symm.trans hres
        refine ⟨user, cred, hu, hc, ?_, fun hat => ha (hsub hat)⟩
        rw [authority_of_not_slashed hs]
        exact authority_flat (PyStr.not_mem_partition colon server.url) hu hc
          (remainderOf server.url)

/-- For given credentials and a scheme-prefixed URL, exactly the
credentials in the authority are refused if it is the authority that is
looked at. -/
theorem rejectsCredentials_iff (hgiven : server.Given) (hr : remainderOf server.url ≠ []) :
    server.RejectsCredentials ↔ server.InspectsAuthority := by
  unfold InspectsAuthority
  cases hs : slashed server.url with
  | true =>
      rw [if_pos rfl]
      exact rejectsCredentials_slashed hgiven hr hs
  | false =>
      rw [if_neg Bool.false_ne_true, rejectsCredentials_plain hgiven hr hs,
        authority_eq_inspected hs]
      refine mem_authority_iff fun hmem => ?_
      have hne := List.mem_takeWhile_imp hmem
      simp at hne

/-- `turn://a:b@h`, with other credentials given. -/
def slashedServer : IceServer where
  url := PyStr.ofChars ['t', 'u', 'r', 'n', ':', '/', '/', 'a', ':', 'b', '@', 'h']
  username := some (PyStr.ofChars ['c'])
  credential := some (PyStr.ofChars ['d'])

/-- `turn:h?x=a@b`, with an `@` behind the authority. -/
def queryServer : IceServer where
  url := PyStr.ofChars ['t', 'u', 'r', 'n', ':', 'h', '?', 'x', '=', 'a', '@', 'b']
  username := some (PyStr.ofChars ['c'])
  credential := some (PyStr.ofChars ['d'])

/-- The first is returned, as `turn:c:d@//a:b@h`; the second is refused
though its authority is `h`. -/
theorem misjudged_urls :
    (slashedServer.toUrl = .ok (PyStr.ofChars ['t', 'u', 'r', 'n', ':', 'c', ':', 'd', '@',
          '/', '/', 'a', ':', 'b', '@', 'h'])
        ∧ atSign ∈ authority slashedServer.url)
      ∧ queryServer.toUrl = .error (.valueError alreadyCarries queryServer.url)
        ∧ authority queryServer.url = PyStr.ofChars ['h'] := by
  decide

/-- `rejectsCredentials_iff` at `slashedServer`, which breaks both
sides. -/
theorem rejectsCredentials_iff_slashedServer :
    slashedServer.RejectsCredentials ↔ slashedServer.InspectsAuthority :=
  rejectsCredentials_iff (Or.inl (by decide)) (by decide)

end IceServer

end AioLibDataChannel
