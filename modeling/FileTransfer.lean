import FileTransfer.Lib.Program
import FileTransfer.Lib.History
import FileTransfer.Lib.Interleaving
import FileTransfer.Lib.Table
import FileTransfer.Lib.Bytes
import FileTransfer.Lib.Text
import FileTransfer.Lib.Lines
import FileTransfer.Lib.PosixPath
import FileTransfer.Lib.FileTree
import FileTransfer.Lib.BlockMode
import FileTransfer.Lib.Gf2
import FileTransfer.Server.Constants
import FileTransfer.Server.World
import FileTransfer.Server.Exceptions
import FileTransfer.Server.DefensiveDB
import FileTransfer.Server.Cksum
import FileTransfer.Server.CryptoHandler
import FileTransfer.Server.RequestHandler
import FileTransfer.Server.Connection
import FileTransfer.Server.Framing
import FileTransfer.Server.Semantics
import FileTransfer.Server.Footprint
import FileTransfer.Server.Run
import FileTransfer.Server.Touch
import FileTransfer.Server.Registration
import FileTransfer.Server.Concurrency
import FileTransfer.Server.FilesTable
import FileTransfer.Server.Recording
import FileTransfer.Server.Verification
import FileTransfer.Server.Confinement
import FileTransfer.Server.Isolation
import FileTransfer.Server.Disclosure
import FileTransfer.Server.Endings
import FileTransfer.Server.Answers
import FileTransfer.Server.Sessions
import FileTransfer.Server.Dangling
import FileTransfer.Server.KeyExchange
import FileTransfer.Server.KeyAgreement
import FileTransfer.Server.Saving
import FileTransfer.Server.ReadBack
import FileTransfer.Server.Frame
import FileTransfer.Server.Integrity
import FileTransfer.Server.Remainder
import FileTransfer.Server.FailedExchange
import FileTransfer.Server.FailedUpload
import FileTransfer.Server.Closing
import FileTransfer.Server.Serving
import FileTransfer.Server.Outcomes
import FileTransfer.Server.Undisturbed
import FileTransfer.Server.Store
import FileTransfer.Client.Protocol
import FileTransfer.Client.ConnectionHandler
import FileTransfer.Client.Cksum
import FileTransfer.Client.TransferInfo
import FileTransfer.Client.EncryptionHandler
import FileTransfer.Client.RequestHandler
import FileTransfer.Client.ResponseHandler
import FileTransfer.Client.TransferFile
import FileTransfer.Client.UuidLine
import FileTransfer.Client.Verdict
import FileTransfer.Client.Process
import FileTransfer.Client.Selectors
import FileTransfer.Client.Client
import FileTransfer.Client.Exchange
import FileTransfer.Client.Uploading
import FileTransfer.Client.Confirming
import FileTransfer.Client.Retrying
import FileTransfer.Client.Life
import FileTransfer.Client.Identity
import FileTransfer.Client.KeyFile
import FileTransfer.Client.Resending
import FileTransfer.Client.IdentityFile
import FileTransfer.Client.CutOff
import FileTransfer.Client.ShortPayload
import FileTransfer.Client.Exchanging
import FileTransfer.EndToEnd.RequestStream
import FileTransfer.EndToEnd.ResponseStream
import FileTransfer.EndToEnd.Upload
import FileTransfer.EndToEnd.Checksum
import FileTransfer.EndToEnd.UploadSize
import FileTransfer.EndToEnd.FileName
import FileTransfer.EndToEnd.Linked
import FileTransfer.EndToEnd.InStep
import FileTransfer.EndToEnd.Answered
import FileTransfer.EndToEnd.Uploaded
import FileTransfer.EndToEnd.Others
import FileTransfer.EndToEnd.Confirmed
import FileTransfer.EndToEnd.SharedKey
import FileTransfer.EndToEnd.Quiet
