import FileServer.Main
import FileServer.Server
import FileServer.Proofs.Bytes
import FileServer.Proofs.Conversation.Serving
import FileServer.Proofs.Service.Confinement
import FileServer.Proofs.Message.Wire
import FileServer.Proofs.Conversation.RoundTrip
import FileServer.Proofs.Host.Isolation
import FileServer.Proofs.Conversation.Conservation
import FileServer.Proofs.Service.Policy
import FileServer.Proofs.Host.Attempts
import FileServer.Proofs.Host.History
import FileServer.Proofs.Conversation.Replies
import FileServer.Proofs.Host.Single
import FileServer.Proofs.Host.Listening
import FileServer.Proofs.Conversation.Delivery
import FileServer.Proofs.Host.Delivery
import FileServer.Proofs.Message.Grammar
import FileServer.Proofs.Message.Delimiting
import FileServer.Proofs.Document.Segments
import FileServer.Proofs.Service.Lookups
import FileServer.Proofs.Conversation.Breaks
import FileServer.Proofs.Conversation.Oversize
import FileServer.Proofs.Conversation.Framing
import FileServer.Proofs.Conversation.Buffering
import FileServer.Proofs.Host.Order
import FileServer.Proofs.Document.Cancelling
import FileServer.Proofs.Conversation.Severed
import FileServer.Proofs.Conversation.RequestLines
import FileServer.Stream.Channel
import FileServer.Proofs.Service.Answers
import FileServer.Proofs.Conversation.Offsets
import FileServer.Proofs.AccessList.Rewriting
import FileServer.Proofs.AccessList.Written
import FileServer.Proofs.Service.Stacks
