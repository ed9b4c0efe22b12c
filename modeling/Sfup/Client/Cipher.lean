import Sfup.Lib.Transition
import Sfup.Client.Packets

/-! The stream cipher of `PolarSSL++`: `cAesCfb128Encryptor` and `cAesCfb128Decryptor` keep a register
that moves by one byte for every byte they process. -/
namespace Sfup.Client

namespace AesCfb128

variable (P : Platform)

/-- One turn of `cAesCfb128Decryptor::ProcessData`; the byte that is fed back is the one received. -/
def decryptByte (c : AesCfb128) (encrypted : UInt8) : UInt8 × AesCfb128 :=
  (encrypted ^^^ (P.aes c.key c.iv).headD 0, { c with iv := c.iv.tail ++ [encrypted] })

def decrypt (c : AesCfb128) : List UInt8 → List UInt8 × AesCfb128
  | [] => ([], c)
  | x :: xs =>
    let (y, c) := decryptByte P c x
    let (ys, c) := decrypt c xs
    (y :: ys, c)

/-- The bytes that `ProcessData` puts out, call after call. -/
def encryptAll (c : AesCfb128) (cut : List (List UInt8)) : List (List UInt8) × AesCfb128 :=
  Transition.run (encrypt P) c cut

def decryptAll (c : AesCfb128) (cut : List (List UInt8)) : List (List UInt8) × AesCfb128 :=
  Transition.run (decrypt P) c cut

theorem encrypt_eq_run : encrypt P = Transition.run (encryptByte P) := by
  funext c xs
  induction xs generalizing c with
  | nil => rfl
  | cons x xs ih => simp [encrypt, Transition.run, ih]

theorem decrypt_eq_run : decrypt P = Transition.run (decryptByte P) := by
  funext c xs
  induction xs generalizing c with
  | nil => rfl
  | cons x xs ih => simp [decrypt, Transition.run, ih]

private theorem flatten_encryptAll (c : AesCfb128) (cut : List (List UInt8)) :
    (encryptAll P c cut).1.flatten = (encrypt P c cut.flatten).1 := by
  rw [encryptAll, encrypt_eq_run, ← Transition.run_chunks]

private theorem flatten_decryptAll (c : AesCfb128) (cut : List (List UInt8)) :
    (decryptAll P c cut).1.flatten = (decrypt P c cut.flatten).1 := by
  rw [decryptAll, decrypt_eq_run, ← Transition.run_chunks]

theorem decryptByte_encryptByte (c : AesCfb128) (x : UInt8) :
    (decryptByte P c (encryptByte P c x).1).1 = x ∧
      (encryptByte P c x).2 = (decryptByte P c (encryptByte P c x).1).2 := by
  refine ⟨?_, rfl⟩
  show x ^^^ (P.aes c.key c.iv).headD 0 ^^^ (P.aes c.key c.iv).headD 0 = x
  rw [UInt8.xor_assoc, UInt8.xor_self, UInt8.xor_zero]

private theorem decrypt_encrypt (c : AesCfb128) (data : List UInt8) :
    (decrypt P c (encrypt P c data).1).1 = data := by
  rw [decrypt_eq_run, encrypt_eq_run]
  refine Transition.run_inverts (R := Eq) ?_ rfl data
  rintro c _ x rfl
  exact decryptByte_encryptByte P c x

/-- However a byte string is cut into calls, the encryptor puts out the same bytes, and a decryptor with
the same key and register gives the string back from them, however they are cut. -/
theorem decryptAll_encryptAll (key iv data : List UInt8) {cut cut' received : List (List UInt8)}
    (hcut : cut.flatten = data) (hcut' : cut'.flatten = data)
    (hreceived : received.flatten = (encryptAll P ⟨key, iv⟩ cut).1.flatten) :
    (encryptAll P ⟨key, iv⟩ cut').1.flatten = (encryptAll P ⟨key, iv⟩ cut).1.flatten ∧
      (decryptAll P ⟨key, iv⟩ received).1.flatten = data := by
  constructor
  · rw [flatten_encryptAll, flatten_encryptAll, hcut, hcut']
  · rw [flatten_decryptAll, hreceived, flatten_encryptAll, hcut, decrypt_encrypt]

def combining : Platform := { Platform.zero with aes := List.zipWith fun x y => x ^^^ y }

/-- With a key and a register of 16 bytes, 18 bytes in one call and in two, received in three with other cuts. -/
theorem decryptAll_encryptAll_combining :
    let c : AesCfb128 := ⟨[7, 10, 13, 16, 19, 22, 25, 28, 31, 34, 37, 40, 43, 46, 49, 52],
      [100, 101, 102, 103, 104, 105, 106, 107, 108, 109, 110, 111, 112, 113, 114, 115]⟩
    let data := [1, 2, 3, 4, 5, 6, 7, 8, 9, 10, 11, 12, 13, 14, 15, 16, 17, 18]
    let sent := [98, 96, 98, 100, 106, 104, 106, 100, 98, 96, 98, 100, 122, 120, 122, 100, 116, 117]
    (encryptAll combining c [data]).1 = [sent] ∧
      (encryptAll combining c [data.take 7, data.drop 7]).1.flatten = (encryptAll combining c [data]).1.flatten ∧
      (decryptAll combining c [sent.take 3, (sent.drop 3).take 14, sent.drop 17]).1.flatten = data := by
  intro c data sent
  have hsent : (encryptAll combining c [data]).1 = [sent] := by decide +kernel
  have h := @decryptAll_encryptAll combining c.key c.iv data [data] [data.take 7, data.drop 7]
    [sent.take 3, (sent.drop 3).take 14, sent.drop 17] rfl rfl (by rw [hsent]; rfl)
  exact ⟨hsent, h⟩

end AesCfb128

namespace Session

variable {P : Platform}

/-- The loop of `SendData` is one way of cutting the data, and sends what the calls put out. -/
theorem encryptLoop_cut {fuel : ℕ} {s s' : Session} {c : AesCfb128} {data : List UInt8}
    (hc : s.encryptor = some c) (h : encryptLoop P fuel s data = some s') :
    ∃ cut, cut.flatten = data ∧ s'.encryptor = some (c.encryptAll P cut).2 ∧
      s'.events = s.events ++ (c.encryptAll P cut).1.map .send := by
  induction fuel generalizing s c data with
  | zero =>
    cases data with
    | nil =>
      obtain rfl : s = s' := by simpa [encryptLoop] using h
      exact ⟨[], rfl, hc, by simp [AesCfb128.encryptAll, Transition.run]⟩
    | cons x xs => simp [encryptLoop] at h
  | succ fuel ih =>
    cases data with
    | nil =>
      obtain rfl : s = s' := by simpa [encryptLoop] using h
      exact ⟨[], rfl, hc, by simp [AesCfb128.encryptAll, Transition.run]⟩
    | cons x xs =>
      rw [encryptLoop, hc] at h
      · obtain ⟨cut, hflat, henc, hev⟩ := ih rfl h
        refine ⟨(x :: xs).take 8192 :: cut, ?_, henc, ?_⟩
        · rw [List.flatten_cons, hflat, List.take_append_drop]
        · rw [hev]
          exact List.append_assoc _ _ _
      · simp

end Session

end Sfup.Client
