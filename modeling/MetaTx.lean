import MetaTx.Abi
import MetaTx.Address
import MetaTx.Bytes
import MetaTx.Bytes.Base58
import MetaTx.Bytes.Base64Url
import MetaTx.Bytes.Bech32
import MetaTx.Bytes.Hex
import MetaTx.Cipher.Aes128
import MetaTx.Cipher.Chain
import MetaTx.CommandLine
import MetaTx.Curve.Ecdsa
import MetaTx.Curve.Modular
import MetaTx.Curve.Named
import MetaTx.Curve.Nonce
import MetaTx.Curve.Point
import MetaTx.Der
import MetaTx.Der.Algorithm
import MetaTx.Der.Domain
import MetaTx.Der.KeyInfo
import MetaTx.Der.ObjectId
import MetaTx.Error
import MetaTx.ExecuteCommand
import MetaTx.Field.Checked
import MetaTx.Field.Reader
import MetaTx.Field.Refusal
import MetaTx.FileTree
import MetaTx.Hash.Hmac
import MetaTx.Hash.Keccak
import MetaTx.Hash.Ripemd160
import MetaTx.Hash.Sha256
import MetaTx.Key.ChainText
import MetaTx.Key.File
import MetaTx.Key.Info
import MetaTx.Key.Network
import MetaTx.Key.Private
import MetaTx.Key.Public
import MetaTx.Key.Signature
import MetaTx.Main
import MetaTx.Message
import MetaTx.Number.Digits
import MetaTx.Number.Double
import MetaTx.Number.Shortest
import MetaTx.Proofs.Abi.Reader
import MetaTx.Proofs.Abi.RoundTrip
import MetaTx.Proofs.Address
import MetaTx.Proofs.Address.Spelling
import MetaTx.Proofs.Bytes.Base58
import MetaTx.Proofs.Bytes.Hex
import MetaTx.Proofs.Bytes.Number
import MetaTx.Proofs.Der
import MetaTx.Proofs.Error
import MetaTx.Proofs.Except
import MetaTx.Proofs.ExecuteCommand.Building
import MetaTx.Proofs.ExecuteCommand.Options
import MetaTx.Proofs.ExecuteCommand.Signing
import MetaTx.Proofs.Key.Conversion
import MetaTx.Proofs.Key.File
import MetaTx.Proofs.Key.Private
import MetaTx.Proofs.Key.Signature
import MetaTx.Proofs.Message
import MetaTx.Proofs.Registry.History
import MetaTx.Proofs.Registry.Interleaving
import MetaTx.Proofs.Relay.Accounts
import MetaTx.Proofs.Relay.Binding
import MetaTx.Proofs.Relay.Checked
import MetaTx.Proofs.Relay.Execution
import MetaTx.Proofs.Relay.Flow
import MetaTx.Proofs.Relay.Layout
import MetaTx.Proofs.Relay.Parts
import MetaTx.Proofs.Relay.Payload
import MetaTx.Proofs.Relay.Readiness
import MetaTx.Proofs.Relay.Rebuilding
import MetaTx.Proofs.Relay.Recording
import MetaTx.Proofs.Relay.TypedData
import MetaTx.Proofs.Relay.Wallet
import MetaTx.Proofs.Rlp.Reader
import MetaTx.Proofs.Service.Handle
import MetaTx.Proofs.Service.Interchange
import MetaTx.Proofs.Service.PublicKey
import MetaTx.Proofs.Service.Session
import MetaTx.Proofs.Service.Signing
import MetaTx.Proofs.Service.Traffic
import MetaTx.Proofs.Signable
import MetaTx.Proofs.Signer.Job
import MetaTx.Proofs.Signer.Signature
import MetaTx.Proofs.Text.Integer
import MetaTx.Proofs.Transaction.Fields
import MetaTx.Proofs.Transaction.Layout
import MetaTx.Proofs.Transaction.Preimage
import MetaTx.Proofs.Transaction.Sending
import MetaTx.Proofs.Transaction.Sent
import MetaTx.Proofs.TypedData
import MetaTx.Proofs.Value.Json
import MetaTx.Registry
import MetaTx.Relay.Builder
import MetaTx.Relay.Call
import MetaTx.Relay.Flow
import MetaTx.Relay.Hashing
import MetaTx.Relay.Request
import MetaTx.Relay.Tx
import MetaTx.Rlp
import MetaTx.Secret
import MetaTx.Service.Answer
import MetaTx.Service.Failure
import MetaTx.Service.Key
import MetaTx.Service.Session
import MetaTx.Settings
import MetaTx.Settings.EnvFile
import MetaTx.Signer
import MetaTx.Text.Blank
import MetaTx.Text.Case
import MetaTx.Text.Integer
import MetaTx.Text.Line
import MetaTx.Text.Printable
import MetaTx.Text.Quoted
import MetaTx.Transaction
import MetaTx.TypedData
import MetaTx.TypedData.Schema
import MetaTx.Value
import MetaTx.Value.Json
import MetaTx.Value.Literal
import MetaTx.Proofs.Curve.Ecdsa
import MetaTx.Proofs.Key.CheckedText
import MetaTx.Proofs.Key.Recovery
import MetaTx.Proofs.Key.Folding
import MetaTx.Proofs.Key.Loading
import MetaTx.Proofs.Bytes.Bech32
import MetaTx.Proofs.Key.ChainAddress
import MetaTx.Proofs.Cipher.Aes128
import MetaTx.Proofs.Cipher.Chain
import MetaTx.Proofs.Bytes.Base64Url
import MetaTx.Proofs.Secret
import MetaTx.Proofs.Key.Text
import MetaTx.Proofs.Registry.StoredKey
import MetaTx.Proofs.Transaction.Parity
import MetaTx.Proofs.Relay.Callable
import MetaTx.Proofs.Bytes.Bech32.Typo
import MetaTx.Proofs.Key.ChainText
import MetaTx.Proofs.Abi.Part
import MetaTx.Proofs.TypedData.Misfit
import MetaTx.Proofs.TypedData.Message
import MetaTx.Proofs.TypedData.Outcome
import MetaTx.Proofs.Key.LowerHalf
import MetaTx.Proofs.Key.Layout
import MetaTx.Proofs.Key.Generation
import MetaTx.Proofs.Der.ObjectId
import MetaTx.Proofs.Der.KeyInfo
import MetaTx.Proofs.Service.Health
